import CyclonRtes.Multiprocessor.Mailbox

/-!
# The hardware mailbox

The mailbox of the multiprocessor system, `altera_avalon_mailbox.v`.  The sender writes the second
word of a message to the pointer register and then the first one to the command register, which
fills the mailbox; as long as it is full, these writes have to wait.  The receiver empties it by
reading the command register.  Its reads take two cycles (`readWaitTime 1`), and every one of the
two carries the read strobe.

A read of the command register that begins while the mailbox is empty may therefore lose a message.
The drivers are not part of the repository.  `System` is the mailbox with a receiver that makes any
accesses, in any order and at any time; it is `Careful` if it reads the command register only after
it has seen in the status register that a message is pending and has read the pointer.  Then the
mailbox is a channel for one message, for every sender (`delivers`).
-/

namespace CyclonRtes.Multiprocessor.MailboxCore

open Channel Synchronous Mailbox

/-! ## The entity -/

/-- The registers of the mailbox. -/
structure Entity where
  commandReg : Word
  pointerReg : Word
  statusReg : Word
  maskReg : Word
  readdataWithWaitstate : Word
  rstForBp : Bool
  deriving DecidableEq, Repr

/-- The inputs of one of the two slave ports in one clock cycle. -/
structure Port where
  address : BitVec 2
  writedata : Word
  write : Bool
  read : Bool
  deriving DecidableEq, Repr

/-- The inputs of the mailbox in one clock cycle. -/
structure Inputs where
  rstN : Bool
  snd : Port
  rcv : Port
  deriving DecidableEq, Repr

/-- `FULL_BIT`. -/
def fullBit : ℕ := 1

/-- `MSG_PENDING_BIT`. -/
def msgPendingBit : ℕ := 0

/-- `SND_INT_BIT`. -/
def sndIntBit : ℕ := 1

/-- `RCV_INT_BIT`. -/
def rcvIntBit : ℕ := 0

/-- The word `{30'b0, b1, b0}`. -/
def twoBits (b1 b0 : Bool) : Word := (if b1 then 2 else 0) ||| (if b0 then 1 else 0)

namespace Entity

/-- Bit `FULL_BIT` of `status_reg`. -/
def isFull (e : Entity) : Bool := e.statusReg.getLsbD fullBit

/-- Bit `MSG_PENDING_BIT` of `status_reg`. -/
def isPending (e : Entity) : Bool := e.statusReg.getLsbD msgPendingBit

/-- `avmm_snd_waitrequest`. -/
def sndWaitrequest (e : Entity) (x : Inputs) : Bool :=
  x.snd.write && x.snd.address == 0b00#2 && e.isFull ||
    x.snd.write && x.snd.address == 0b01#2 && e.isFull || e.rstForBp

/-- `snd_wr_valid`. -/
def sndWrValid (e : Entity) (x : Inputs) : Bool := x.snd.write && !e.sndWaitrequest x

/-- `snd_rd_valid`. -/
def sndRdValid (e : Entity) (x : Inputs) : Bool := x.snd.read && !e.sndWaitrequest x

/-- The sender's write to the command register takes effect. -/
def accepts (e : Entity) (x : Inputs) : Bool := x.snd.address == 0b00#2 && e.sndWrValid x

/-- The receiver reads the command register. -/
def takes (x : Inputs) : Bool := x.rcv.address == 0b00#2 && x.rcv.read

/-- `command_comb`. -/
def commandComb (e : Entity) (x : Inputs) : Word :=
  if e.sndWrValid x && x.snd.address == 0b00#2 then x.snd.writedata else e.commandReg

/-- `pointer_comb`. -/
def pointerComb (e : Entity) (x : Inputs) : Word :=
  if e.sndWrValid x && x.snd.address == 0b01#2 then x.snd.writedata else e.pointerReg

/-- `snd_mask`. -/
def sndMask (e : Entity) (x : Inputs) : Bool :=
  if e.sndWrValid x && x.snd.address == 0b11#2 then x.snd.writedata.getLsbD sndIntBit
  else e.maskReg.getLsbD sndIntBit

/-- `rcv_mask`. -/
def rcvMask (e : Entity) (x : Inputs) : Bool :=
  if x.rcv.write && x.rcv.address == 0b11#2 then x.rcv.writedata.getLsbD rcvIntBit
  else e.maskReg.getLsbD rcvIntBit

/-- `full`. -/
def full (e : Entity) (x : Inputs) : Bool := if e.isFull then !takes x else e.accepts x

/-- `pending`. -/
def pending (e : Entity) (x : Inputs) : Bool := if e.isPending then !takes x else e.accepts x

/-- `snd_int_readdata` and `rcv_int_readdata`: the register at an address. -/
def intReaddata (e : Entity) (address : BitVec 2) : Word :=
  (if address = 0b00#2 then e.commandReg else 0) |||
    (if address = 0b01#2 then e.pointerReg else 0) |||
    (if address = 0b10#2 then e.statusReg else 0) |||
    (if address = 0b11#2 then e.maskReg else 0)

/-- `avmm_snd_readdata`. -/
def sndReaddata (e : Entity) (x : Inputs) : Word :=
  if e.sndRdValid x then e.intReaddata x.snd.address else 0

/-- `rcv_act_readdata`. -/
def rcvActReaddata (e : Entity) (x : Inputs) : Word :=
  if x.rcv.read then e.intReaddata x.rcv.address else 0

/-- `irq_space`. -/
def irqSpace (e : Entity) : Bool := !e.isFull && e.maskReg.getLsbD sndIntBit

/-- `irq_msg`. -/
def irqMsg (e : Entity) : Bool := e.isPending && e.maskReg.getLsbD rcvIntBit

/-- The registers after a reset. -/
def reset : Entity := ⟨0, 0, 0, 0, 0, true⟩

/-- One rising edge of `clk`. -/
def step (e : Entity) (x : Inputs) : Entity :=
  if x.rstN then
    { commandReg := e.commandComb x
      pointerReg := e.pointerComb x
      statusReg := twoBits (e.full x) (e.pending x)
      maskReg := twoBits (e.sndMask x) (e.rcvMask x)
      readdataWithWaitstate := e.rcvActReaddata x
      rstForBp := false }
  else reset

/-- The two bits of the status register are equal. -/
def Consistent (e : Entity) : Prop := e.isFull = e.isPending

/-- The message in the registers. -/
def message (e : Entity) : Message := ⟨e.commandReg, e.pointerReg⟩

/-- The mailbox as a channel for one message. -/
def channel (e : Entity) : Fifo Message 1 := if e.isFull then Fifo.empty.post e.message else .empty

/-- The message that the sender completes in this cycle. -/
def posts (e : Entity) (x : Inputs) : List Message :=
  if e.accepts x then [⟨x.snd.writedata, e.pointerReg⟩] else []

end Entity

section Edge

variable {e : Entity} {x : Inputs}

@[simp] lemma twoBits_one (b1 b0 : Bool) : (twoBits b1 b0)[1] = b1 := by
  cases b1 <;> cases b0 <;> rfl

@[simp] lemma twoBits_zero (b1 b0 : Bool) : (twoBits b1 b0)[0] = b0 := by
  cases b1 <;> cases b0 <;> rfl

/-- The full flag after an edge without reset. -/
lemma isFull_step (hx : x.rstN = true) : (e.step x).isFull = e.full x := by
  simp [Entity.step, Entity.isFull, fullBit, hx]

/-- The pending flag after an edge without reset. -/
lemma isPending_step (hx : x.rstN = true) : (e.step x).isPending = e.pending x := by
  simp [Entity.step, Entity.isPending, msgPendingBit, hx]

/-- The read data after an edge without reset show the register that is read. -/
lemma readdata_step (hx : x.rstN = true) :
    (e.step x).readdataWithWaitstate = e.rcvActReaddata x := by
  simp [Entity.step, hx]

/-- The two flags stay equal. -/
lemma Entity.Consistent.step (he : e.Consistent) (hx : x.rstN = true) :
    (e.step x).Consistent := by
  unfold Entity.Consistent at he ⊢
  rw [isFull_step hx, isPending_step hx, Entity.full, Entity.pending, he]

/-- A full mailbox accepts neither a command nor a pointer. -/
lemma sndWrValid_of_isFull (he : e.isFull = true)
    (ha : x.snd.address = 0b00#2 ∨ x.snd.address = 0b01#2) : e.sndWrValid x = false := by
  unfold Entity.sndWrValid Entity.sndWaitrequest
  rcases ha with ha | ha <;> cases x.snd.write <;> simp [he, ha]

/-- The message in a full mailbox does not change. -/
lemma message_step_of_isFull (hx : x.rstN = true) (he : e.isFull = true) :
    (e.step x).message = e.message := by
  unfold Entity.message Entity.step Entity.commandComb Entity.pointerComb
  rw [if_pos hx]
  have hno := sndWrValid_of_isFull (x := x) he
  by_cases h0 : x.snd.address = 0b00#2
  · simp [h0, hno (.inl h0)]
  · by_cases h1 : x.snd.address = 0b01#2
    · simp [h1, hno (.inr h1)]
    · simp [h0, h1]

/-- A full mailbox accepts no message. -/
lemma posts_of_isFull (he : e.isFull = true) : e.posts x = [] := by
  unfold Entity.posts Entity.accepts
  by_cases h0 : x.snd.address = 0b00#2
  · simp [sndWrValid_of_isFull (x := x) he (.inl h0)]
  · simp [h0]

/-- A full mailbox contains the message in its registers. -/
lemma items_of_isFull (he : e.isFull = true) : e.channel.items = [e.message] := by
  unfold Entity.channel
  rw [if_pos he, Fifo.items_post Nat.zero_lt_one, Fifo.items_empty, List.nil_append]

/-- A mailbox that is not full is empty. -/
lemma items_of_not_isFull (he : e.isFull = false) : e.channel.items = [] := by
  simp [Entity.channel, he]

/-- A mailbox that is not full contains afterwards what it has accepted. -/
lemma items_step_of_not_isFull (hx : x.rstN = true) (he : e.isFull = false) :
    (e.step x).channel.items = e.posts x := by
  have hfull : (e.step x).isFull = e.accepts x := by simp [isFull_step hx, Entity.full, he]
  unfold Entity.posts
  cases ha : e.accepts x with
  | false => exact items_of_not_isFull (hfull.trans ha)
  | true =>
    have h0 : x.snd.address = 0b00#2 ∧ e.sndWrValid x = true := by
      simpa [Entity.accepts] using ha
    rw [items_of_isFull (hfull.trans ha)]
    simp [Entity.message, Entity.step, Entity.commandComb, Entity.pointerComb, hx, h0]

end Edge

/-! ## A receiver on the bus -/

/-- An access of the receiver. -/
inductive Access where
  | read (address : BitVec 2)
  | write (address : BitVec 2) (data : Word)
  deriving DecidableEq, Repr

/-- The receiver: the address of the read whose second cycle this is, whether it has seen that there
is a message since it last read the command register, and the pointer that it has read since. -/
structure Receiver where
  held : Option (BitVec 2)
  informed : Bool
  pointer : Option Word
  deriving DecidableEq, Repr

/-- The mailbox and its receiver. -/
structure System where
  core : Entity
  receiver : Receiver
  deriving DecidableEq, Repr

/-- What happens in a clock cycle: the lines of the sender, and the access that the receiver begins
unless it is in the second cycle of a read. -/
structure Schedule where
  snd : Port
  access : Option Access
  deriving DecidableEq, Repr

/-- The lines of the receiver. -/
def Receiver.port (r : Receiver) (access : Option Access) : Port :=
  match r.held, access with
  | some a, _ | none, some (.read a) => ⟨a, 0, false, true⟩
  | none, some (.write a d) => ⟨a, d, true, false⟩
  | none, none => ⟨0, 0, false, false⟩

/-- The receiver after a clock cycle.  It samples the read data at the end of the second cycle of a
read. -/
def Receiver.next (r : Receiver) (access : Option Access) (readdata : Word) : Receiver :=
  match r.held, access with
  | some 0b00#2, _ => { held := none, informed := false, pointer := none }
  | some 0b01#2, _ =>
    { r with held := none, pointer := if r.informed then some readdata else r.pointer }
  | some 0b10#2, _ =>
    { r with held := none, informed := r.informed || readdata.getLsbD msgPendingBit }
  | some _, _ => { r with held := none }
  | none, some (.read a) => { r with held := some a }
  | none, _ => r

section Receiver

variable {r : Receiver} {access : Option Access} {readdata p : Word} {a : BitVec 2}

/-- A second cycle follows the first cycle of a read. -/
lemma Receiver.held_next (h : (r.next access readdata).held = some a) :
    r.held = none ∧ access = some (.read a) := by
  unfold Receiver.next at h
  split at h <;> simp_all

/-- The receiver learns that there is a message from the status register, and forgets it with the
read of the command register. -/
lemma Receiver.informed_next (h : (r.next access readdata).informed = true) :
    r.held ≠ some 0b00#2 ∧ (r.informed = true ∨
      r.held = some 0b10#2 ∧ readdata.getLsbD msgPendingBit = true) := by
  unfold Receiver.next at h
  split at h <;> simp_all

/-- What the receiver knows it forgets with the read of the command register only. -/
lemma Receiver.informed_next_of_ne (hne : r.held ≠ some 0b00#2) (h : r.informed = true) :
    (r.next access readdata).informed = true := by
  unfold Receiver.next
  split <;> simp_all

/-- The receiver learns the pointer from the pointer register, and forgets it with the read of the
command register. -/
lemma Receiver.pointer_next (h : (r.next access readdata).pointer = some p) :
    r.held ≠ some 0b00#2 ∧ (r.pointer = some p ∨
      r.held = some 0b01#2 ∧ r.informed = true ∧ p = readdata) := by
  unfold Receiver.next at h
  split at h
  case h_2 hheld =>
    by_cases hinf : r.informed = true <;> simp_all
  all_goals simp_all

end Receiver

namespace System

/-- The inputs of the mailbox. -/
def inputs (s : System) (x : Schedule) : Inputs := ⟨true, x.snd, s.receiver.port x.access⟩

/-- One clock cycle. -/
def step (s : System) (x : Schedule) : System where
  core := s.core.step (s.inputs x)
  receiver := s.receiver.next x.access s.core.readdataWithWaitstate

/-- The message that the sender completes in this cycle. -/
def sends (s : System) (x : Schedule) : List Message := s.core.posts (s.inputs x)

/-- The message that is on its way to the receiver: its first word is in the read data. -/
def receives (s : System) : List Message :=
  match s.receiver.held, s.receiver.pointer with
  | some 0b00#2, some pointer => [⟨s.core.readdataWithWaitstate, pointer⟩]
  | _, _ => []

/-- The receiver begins to read the command register in this cycle. -/
def Takes (s : System) (x : Schedule) : Prop :=
  s.receiver.held = none ∧ x.access = some (.read 0b00#2)

/-- The receiver begins to read the command register only if it knows the pointer of a message. -/
def Careful (s : System) (x : Schedule) : Prop :=
  s.Takes x → s.receiver.pointer.isSome = true

/-- The mailbox has been reset and the receiver has made no access yet. -/
def initial : System := ⟨Entity.reset, ⟨none, false, none⟩⟩

/-- What the receiver knows is true. -/
structure Sound (s : System) : Prop where
  consistent : s.core.Consistent
  /-- In the second cycle of a read of the command register the mailbox is empty. -/
  taking : s.receiver.held = some 0b00#2 →
    s.core.isFull = false ∧ s.receiver.pointer.isSome = true
  informed : s.receiver.held ≠ some 0b00#2 → s.receiver.informed = true → s.core.isFull = true
  pointer : s.receiver.held ≠ some 0b00#2 → ∀ p, s.receiver.pointer = some p →
    s.receiver.informed = true ∧ p = s.core.pointerReg
  /-- In the second cycle of a read of the pointer register. -/
  pointerRead : s.receiver.held = some 0b01#2 → s.receiver.informed = true →
    s.core.readdataWithWaitstate = s.core.pointerReg
  /-- In the second cycle of a read of the status register. -/
  statusRead : s.receiver.held = some 0b10#2 →
    s.core.readdataWithWaitstate.getLsbD msgPendingBit = true → s.core.isFull = true

/-- The receiver knows nothing in the beginning. -/
lemma sound_initial : initial.Sound := by
  constructor <;> simp [initial, Entity.Consistent, Entity.isFull, Entity.isPending, Entity.reset]

section Step

variable {s : System} {x : Schedule}

/-- The full flag after a cycle. -/
lemma core_isFull_step : (s.step x).core.isFull = s.core.full (s.inputs x) := isFull_step rfl

/-- The read data after a cycle. -/
lemma core_readdata_step :
    (s.step x).core.readdataWithWaitstate = s.core.rcvActReaddata (s.inputs x) := readdata_step rfl

/-- The receiver reads the command register in both cycles of such a read. -/
lemma takes_inputs : Entity.takes (s.inputs x) = true ↔
    s.receiver.held = some 0b00#2 ∨ s.Takes x := by
  unfold Entity.takes inputs Receiver.port Takes
  cases s.receiver.held with
  | some a => simp
  | none =>
    match x.access with
    | none => simp
    | some (.read a) => simp
    | some (.write a d) => simp

/-- The first cycle of a read of the command register empties the mailbox. -/
lemma step_of_takes (hs : s.Sound) (hx : s.Careful x) (ht : s.Takes x) :
    (s.step x).core.isFull = false ∧ (s.step x).receives = [s.core.message] ∧
      s.core.isFull = true ∧ (s.step x).receiver = { s.receiver with held := some 0b00#2 } := by
  obtain ⟨p, hp⟩ := Option.isSome_iff_exists.mp (hx ht)
  have htakes := takes_inputs.mpr (.inr ht)
  obtain ⟨hheld, haccess⟩ := ht
  have hne : s.receiver.held ≠ some 0b00#2 := by simp [hheld]
  obtain ⟨hinf, rfl⟩ := hs.pointer hne p hp
  have hfull := hs.informed hne hinf
  have hnext : (s.step x).receiver = { s.receiver with held := some 0b00#2 } := by
    simp [step, Receiver.next, hheld, haccess]
  refine ⟨?_, ?_, hfull, hnext⟩
  · rw [core_isFull_step, Entity.full, if_pos hfull, htakes]
    rfl
  · unfold receives
    rw [hnext, hp]
    simp [core_readdata_step, Entity.rcvActReaddata, Entity.intReaddata, inputs, Receiver.port,
      hheld, haccess, Entity.message]

/-- Unless the receiver reads the command register, a full mailbox keeps its message. -/
lemma kept_of_not_takes (hs : s.Sound) (ht : ¬ s.Takes x) (hfull : s.core.isFull = true) :
    (s.step x).core.isFull = true ∧ (s.step x).core.message = s.core.message := by
  refine ⟨?_, message_step_of_isFull rfl hfull⟩
  have hnot : Entity.takes (s.inputs x) = false := by
    rw [← Bool.not_eq_true, takes_inputs, not_or]
    refine ⟨fun hheld => ?_, ht⟩
    rw [(hs.taking hheld).1] at hfull
    exact Bool.false_ne_true hfull
  rw [core_isFull_step, Entity.full, if_pos hfull, hnot]
  rfl

/-- What the receiver knows stays true. -/
lemma Sound.step (hs : s.Sound) (hx : s.Careful x) : (s.step x).Sound := by
  have hcons : (s.step x).core.Consistent := hs.consistent.step rfl
  by_cases ht : s.Takes x
  · obtain ⟨hempty, -, -, hnext⟩ := step_of_takes hs hx ht
    refine ⟨hcons, fun _ => ⟨hempty, ?_⟩, ?_, ?_, ?_, ?_⟩
    · rw [hnext]
      exact hx ht
    all_goals
      intro hheld
      rw [hnext] at hheld
      simp at hheld
  · have hkept := fun hfull => kept_of_not_takes hs ht hfull
    have hpointer : s.core.isFull = true → (s.step x).core.pointerReg = s.core.pointerReg :=
      fun hfull => congrArg Message.word1 (hkept hfull).2
    have hfull_of : ∀ h : (s.step x).receiver.informed = true, s.core.isFull = true := by
      intro h
      obtain ⟨hne, hinf | ⟨hheld, hbit⟩⟩ := Receiver.informed_next h
      · exact hs.informed hne hinf
      · exact hs.statusRead hheld hbit
    refine ⟨hcons, ?_, fun _ h => (hkept (hfull_of h)).1, ?_, ?_, ?_⟩
    · intro hheld
      exact absurd (Receiver.held_next hheld) ht
    · intro _ p hp
      obtain ⟨hne, hp | ⟨hheld, hinf, rfl⟩⟩ := Receiver.pointer_next hp
      · obtain ⟨hinf, rfl⟩ := hs.pointer hne p hp
        exact ⟨Receiver.informed_next_of_ne hne hinf, (hpointer (hs.informed hne hinf)).symm⟩
      · refine ⟨Receiver.informed_next_of_ne hne hinf, ?_⟩
        rw [hpointer (hs.informed hne hinf)]
        exact hs.pointerRead hheld hinf
    · intro hheld hinf
      obtain ⟨hnone, haccess⟩ := Receiver.held_next hheld
      rw [hpointer (hfull_of hinf)]
      simp [core_readdata_step, Entity.rcvActReaddata, Entity.intReaddata, inputs, Receiver.port,
        hnone, haccess]
    · intro hheld hbit
      obtain ⟨hnone, haccess⟩ := Receiver.held_next hheld
      refine (hkept ?_).1
      rw [hs.consistent]
      simpa [core_readdata_step, Entity.rcvActReaddata, Entity.intReaddata, inputs, Receiver.port,
        hnone, haccess, Entity.isPending] using hbit

/-- Each cycle moves the messages on: what is in the mailbox or on its way to the receiver
afterwards was in the mailbox before or has just been sent. -/
lemma messages_step (hs : s.Sound) (hx : s.Careful x) :
    (s.step x).receives ++ (s.step x).core.channel.items = s.core.channel.items ++ s.sends x := by
  by_cases ht : s.Takes x
  · obtain ⟨hempty, hreceives, hfull, -⟩ := step_of_takes hs hx ht
    rw [hreceives, items_of_not_isFull hempty, items_of_isFull hfull, sends, posts_of_isFull hfull]
  · have hnil : (s.step x).receives = [] := by
      unfold receives
      split
      case h_1 hheld _ => exact absurd (Receiver.held_next hheld) ht
      case h_2 => rfl
    rw [hnil, List.nil_append]
    cases hfull : s.core.isFull with
    | true =>
      obtain ⟨hfull', hmessage⟩ := kept_of_not_takes hs ht hfull
      rw [items_of_isFull hfull', hmessage, items_of_isFull hfull, sends, posts_of_isFull hfull,
        List.append_nil]
    | false =>
      rw [items_of_not_isFull hfull, List.nil_append]
      exact items_step_of_not_isFull rfl hfull

end Step

/-! ## Runs -/

/-- The messages sent in a run before cycle `t`, oldest first. -/
def sent (s : System) (x : ℕ → Schedule) (t : ℕ) : List Message := log sends step s x t

/-- The messages received in a run before cycle `t`, oldest first. -/
def received (s : System) (x : ℕ → Schedule) (t : ℕ) : List Message :=
  log (fun s _ => s.receives) step s x t

variable {s : System} {x : ℕ → Schedule}

/-- What the receiver knows is true in every cycle. -/
lemma sound_run (hs : s.Sound) (hx : ∀ t, (run step s x t).Careful (x t)) (t : ℕ) :
    (run step s x t).Sound := by
  induction t with
  | zero => exact hs
  | succ t ih => exact ih.step (hx t)

/-- The mailbox is a channel for one message: whatever the sender does, every message that it has
completed is received once, in order and with both words, is on its way to the receiver, or is in
the mailbox. -/
theorem delivers (hx : ∀ t, (run step initial x t).Careful (x t)) (t : ℕ) :
    received initial x t ++ (run step initial x t).receives ++
      (run step initial x t).core.channel.items = sent initial x t := by
  induction t with
  | zero =>
    have hempty : initial.receives ++ initial.core.channel.items = [] := by decide
    exact hempty
  | succ t ih =>
    have hstep := messages_step (sound_run sound_initial hx t) (hx t)
    calc received initial x (t + 1) ++ (run step initial x (t + 1)).receives ++
          (run step initial x (t + 1)).core.channel.items
        = received initial x t ++ (run step initial x t).receives ++
          ((run step initial x (t + 1)).receives ++
            (run step initial x (t + 1)).core.channel.items) := by
          rw [← List.append_assoc]
          rfl
      _ = sent initial x (t + 1) := by
          rw [run_succ, hstep, ← List.append_assoc, ih]
          rfl

/-! ### One message -/

/-- Idle lines of the sender. -/
def idleSender : Port := ⟨0, 0, false, false⟩

/-- The message of `cpu0_mailbox.c` is sent; then the receiver reads the status, the pointer and the
command. -/
def exchange : ℕ → Schedule
  | 1 => ⟨⟨1, 0xaa55aa55, true, false⟩, none⟩
  | 2 => ⟨⟨0, 0x00000001, true, false⟩, none⟩
  | 3 => ⟨idleSender, some (.read 2)⟩
  | 5 => ⟨idleSender, some (.read 1)⟩
  | 7 => ⟨idleSender, some (.read 0)⟩
  | _ => ⟨idleSender, none⟩

/-- The receiver reads the command register last. -/
lemma careful_exchange (t : ℕ) : (run step initial exchange t).Careful (exchange t) := by
  by_cases ht : t = 7
  · subst ht
    intro _
    decide
  · rintro ⟨-, haccess⟩
    unfold exchange at haccess
    split at haccess <;> simp_all

/-- The receiver gets both words of the message. -/
theorem delivers_exchange : received initial exchange 9 = [⟨0x00000001, 0xaa55aa55⟩] := by
  have h := delivers careful_exchange 9
  rw [show (run step initial exchange 9).receives = [] by decide,
    show (run step initial exchange 9).core.channel.items = [] by decide,
    List.append_nil, List.append_nil] at h
  rw [h]
  decide

/-- A receiver that reads the command register while the mailbox is empty loses a message that is
sent at the same time. -/
example : ∃ x : ℕ → Schedule, (sent initial x 4).length = 1 ∧ received initial x 4 = [] ∧
    (run step initial x 4).receives = [] ∧ (run step initial x 4).core.channel.items = [] := by
  refine ⟨fun t => ⟨⟨0, 1, t == 2, false⟩, if t = 2 then some (.read 0) else none⟩, ?_⟩
  decide

end System

end CyclonRtes.Multiprocessor.MailboxCore
