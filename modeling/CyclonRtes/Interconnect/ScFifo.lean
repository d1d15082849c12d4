import CyclonRtes.Channel.Fifo
import CyclonRtes.Synchronous.Trace

/-!
# The response queues of the interconnect

For every slave the generated interconnect of the multiprocessor system has a queue that remembers
which master a pending access belongs to, `altera_avalon_sc_fifo.v` in its register-based variant
with empty latency 1.  It has no pointers: it is a shift register in which every slot has a bit that
says whether it is occupied, and what is written goes to all slots that are free or become free.

`Represents` is the abstraction to a bounded channel.  The queue is that channel for every depth,
and for all cycles in which it is written, read or both (`emits_inOrder`); and what has been written
comes out (`emits_all`).
-/

namespace CyclonRtes.Interconnect

open Channel Synchronous

/-! ## The queue -/

/-- The registers of the queue.  The slots are those from 0 to `depth - 1`. -/
structure ScFifo (depth w : ℕ) where
  mem : ℕ → BitVec w
  memUsed : ℕ → Bool

namespace ScFifo

/-- The inputs of the queue in one clock cycle. -/
structure Inputs (w : ℕ) where
  reset : Bool
  inPayload : BitVec w
  inValid : Bool
  outReady : Bool

variable {depth w : ℕ}

/-- `empty`. -/
def empty (s : ScFifo depth w) : Bool := !s.memUsed 0

/-- `out_valid`. -/
def outValid (s : ScFifo depth w) : Bool := !s.empty

/-- `out_payload`. -/
def outPayload (s : ScFifo depth w) : BitVec w := s.mem 0

/-- `internal_out_ready`. -/
def internalOutReady (s : ScFifo depth w) (x : Inputs w) : Bool := x.outReady || !s.outValid

/-- `read`. -/
def read (s : ScFifo depth w) (x : Inputs w) : Bool := s.internalOutReady x && s.outValid

/-- `full`. -/
def full (s : ScFifo depth w) (x : Inputs w) : Bool :=
  if depth = 1 then s.memUsed 0 && !s.read x else s.memUsed (depth - 1)

/-- `in_ready`. -/
def inReady (s : ScFifo depth w) (x : Inputs w) : Bool := !s.full x

/-- `write`. -/
def write (s : ScFifo depth w) (x : Inputs w) : Bool := s.inReady x && x.inValid

/-- `mem[i]` after a clock edge without reset. -/
def nextMem (s : ScFifo depth w) (x : Inputs w) (i : ℕ) : BitVec w :=
  if i + 1 < depth then
    if s.read x || !s.memUsed i then
      if !s.memUsed (i + 1) then x.inPayload else s.mem (i + 1)
    else s.mem i
  else if depth = 1 then
    if s.write x then x.inPayload else s.mem i
  else if !s.memUsed i then x.inPayload
  else s.mem i

/-- `mem_used[i]` after a clock edge without reset. -/
def nextMemUsed (s : ScFifo depth w) (x : Inputs w) (i : ℕ) : Bool :=
  if s.write x ^^ s.read x then
    if i = 0 then
      if s.write x then true else if depth > 1 then s.memUsed 1 else false
    else if i = depth - 1 then
      if s.write x then s.memUsed (depth - 2) else false
    else if s.write x then s.memUsed (i - 1)
    else s.memUsed (i + 1)
  else s.memUsed i

/-- The registers after a reset. -/
def reset : ScFifo depth w := ⟨fun _ => 0, fun _ => false⟩

/-- One rising edge of `clk`. -/
def step (s : ScFifo depth w) (x : Inputs w) : ScFifo depth w :=
  if x.reset then reset else ⟨s.nextMem x, s.nextMemUsed x⟩

/-- The payload that is written in the cycle. -/
def accepted (s : ScFifo depth w) (x : Inputs w) : List (BitVec w) :=
  if s.write x then [x.inPayload] else []

/-- The payload that is read in the cycle. -/
def emitted (s : ScFifo depth w) (x : Inputs w) : List (BitVec w) :=
  if s.outValid && x.outReady then [s.outPayload] else []

/-! ## The abstraction -/

/-- The occupied slots are the first ones, and they hold the messages of the channel. -/
structure Represents (s : ScFifo depth w) (l : List (BitVec w)) : Prop where
  bounded : l.length ≤ depth
  used : ∀ i < depth, s.memUsed i = decide (i < l.length)
  mem : ∀ i < l.length, l[i]? = some (s.mem i)

section Edge

variable {s : ScFifo depth w} {x : Inputs w} {l : List (BitVec w)}

/-- A reset empties the queue. -/
lemma represents_reset : (reset : ScFifo depth w).Represents [] :=
  ⟨Nat.zero_le _, fun _ _ => rfl, fun i hi => absurd hi (Nat.not_lt_zero i)⟩

/-- The queue is read if it is not empty and the output is ready. -/
lemma read_eq : s.read x = (s.outValid && x.outReady) := by
  unfold read internalOutReady
  cases s.outValid <;> cases x.outReady <;> rfl

/-- The output is valid unless the queue is empty. -/
lemma Represents.outValid_eq (h : s.Represents l) (hd : 0 < depth) :
    s.outValid = decide (0 < l.length) := by
  rw [outValid, empty, Bool.not_not, h.used 0 hd]

/-- A queue that is read is not empty. -/
lemma Represents.pos_of_read (h : s.Represents l) (hd : 0 < depth) (hr : s.read x = true) :
    0 < l.length := by
  rw [read_eq, h.outValid_eq hd, Bool.and_eq_true, decide_eq_true_eq] at hr
  exact hr.1

/-- A queue is written only if it has room, or if it has one slot and is read as well. -/
lemma Represents.room_of_write (h : s.Represents l) (hd : 0 < depth) (hw : s.write x = true) :
    l.length < depth ∨ depth = 1 ∧ s.read x = true := by
  unfold write inReady full at hw
  rw [Bool.and_eq_true, Bool.not_eq_true'] at hw
  have hfull := hw.1
  split_ifs at hfull with h1
  · rw [h.used 0 hd] at hfull
    cases hr : s.read x with
    | true => exact .inr ⟨h1, rfl⟩
    | false =>
      simp only [hr, Bool.not_false, Bool.and_true, decide_eq_false_iff_not] at hfull
      exact .inl (by omega)
  · rw [h.used _ (by omega), decide_eq_false_iff_not] at hfull
    exact .inl (by omega)

/-- Without a read an occupied slot keeps its message. -/
lemma Represents.nextMem_of_not_read (h : s.Represents l) (hd : 0 < depth)
    (hr : s.read x = false) {i : ℕ} (hi : i < l.length) : s.nextMem x i = s.mem i := by
  have hb := h.bounded
  have hused : s.memUsed i = true := by rw [h.used i (by omega), decide_eq_true hi]
  unfold nextMem
  split_ifs with h1 h2 h3 h4 h5 h6
  · simp [hr, hused] at h2
  · simp [hr, hused] at h2
  · rfl
  · rcases h.room_of_write hd h5 with hroom | ⟨-, hread⟩
    · omega
    · rw [hr] at hread
      exact absurd hread Bool.false_ne_true
  · rfl
  · simp [hused] at h6
  · rfl

/-- What is written goes to the first free slot, and to those after it. -/
lemma Represents.nextMem_of_write (h : s.Represents l) (hw : s.write x = true)
    (hroom : l.length < depth) : s.nextMem x l.length = x.inPayload := by
  have hfree : ∀ i < depth, l.length ≤ i → s.memUsed i = false := fun i hi hli => by
    rw [h.used i hi, decide_eq_false (by omega)]
  have hused := hfree l.length hroom le_rfl
  unfold nextMem
  split_ifs with h1 h2 h3 h4
  · rfl
  · rw [hfree _ h1 (Nat.le_succ _)] at h3
    exact absurd rfl h3
  · simp [hused] at h2
  · rfl
  · rfl
  · simp_all

/-- With a read the messages move on by one slot. -/
lemma Represents.nextMem_of_read (h : s.Represents l) (hr : s.read x = true) {i : ℕ}
    (hi : i + 1 < l.length) : s.nextMem x i = s.mem (i + 1) := by
  have hb := h.bounded
  have hused : s.memUsed (i + 1) = true := by rw [h.used (i + 1) (by omega), decide_eq_true hi]
  unfold nextMem
  rw [if_pos (by omega), hr, hused]
  rfl

/-- With a read what is written goes to the slot that becomes free. -/
lemma Represents.nextMem_of_read_write (h : s.Represents l) (hd : 0 < depth) (hr : s.read x = true)
    (hw : s.write x = true) : s.nextMem x (l.length - 1) = x.inPayload := by
  have hpos := h.pos_of_read hd hr
  have hb := h.bounded
  unfold nextMem
  rcases h.room_of_write hd hw with hroom | ⟨h1, -⟩
  · have hfree : s.memUsed (l.length - 1 + 1) = false := by
      rw [h.used _ (by omega), decide_eq_false (by omega)]
    rw [if_pos (by omega), hr, hfree]
    rfl
  · rw [if_neg (by omega), if_pos h1, if_pos hw]

/-- The occupancy bits follow the number of messages. -/
lemma Represents.nextMemUsed_eq (h : s.Represents l) (hd : 0 < depth) {i : ℕ} (hi : i < depth) :
    s.nextMemUsed x i = decide (i + (if s.read x then 1 else 0) <
      l.length + if s.write x then 1 else 0) := by
  have hb := h.bounded
  unfold nextMemUsed
  cases hr : s.read x with
  | false =>
    cases hw : s.write x with
    | false => simp [h.used i hi]
    | true =>
      simp only [Bool.xor_false, if_true, Bool.false_eq_true, if_false]
      split_ifs with h0 hlast
      · simp [h0]
      · rw [h.used _ (by omega), decide_eq_decide]
        omega
      · rw [h.used _ (by omega), decide_eq_decide]
        omega
  | true =>
    cases hw : s.write x with
    | false =>
      simp only [Bool.false_xor, if_true, Bool.false_eq_true, if_false]
      split_ifs with h0 h1 hlast
      · rw [h.used 1 h1, h0]
        rfl
      · rw [eq_comm, decide_eq_false_iff_not]
        omega
      · rw [eq_comm, decide_eq_false_iff_not]
        omega
      · rw [h.used _ (by omega)]
        rfl
    | true => simp [h.used i hi]

/-- The messages after a clock edge: the oldest one is gone if the queue is read, and a new one
comes behind the others if it is written. -/
def next (s : ScFifo depth w) (x : Inputs w) (l : List (BitVec w)) : List (BitVec w) :=
  (if s.read x then l.tail else l) ++ s.accepted x

/-- The number of messages after a clock edge. -/
lemma Represents.length_next (h : s.Represents l) (hd : 0 < depth) :
    (s.next x l).length + (if s.read x then 1 else 0) =
      l.length + if s.write x then 1 else 0 := by
  unfold next accepted
  cases hr : s.read x with
  | false => cases s.write x <;> simp
  | true =>
    have hpos := h.pos_of_read hd hr
    cases s.write x <;> simp <;> omega

/-- The messages after a clock edge are in the first slots. -/
lemma Represents.getElem?_next (h : s.Represents l) (hd : 0 < depth) {i : ℕ}
    (hi : i < (s.next x l).length) : (s.next x l)[i]? = some (s.nextMem x i) := by
  have hlen := h.length_next (x := x) hd
  unfold next accepted at *
  cases hr : s.read x with
  | false =>
    simp only [hr, Bool.false_eq_true, if_false] at hi hlen ⊢
    by_cases hil : i < l.length
    · rw [List.getElem?_append_left hil, h.mem i hil, h.nextMem_of_not_read hd hr hil]
    · cases hw : s.write x with
      | false => simp [hw] at hi; omega
      | true =>
        obtain rfl : i = l.length := by simp [hw] at hi; omega
        have hroom := (h.room_of_write hd hw).resolve_right fun hone => by simp [hr] at hone
        rw [h.nextMem_of_write hw hroom, if_pos rfl, List.getElem?_concat_length]
  | true =>
    have hpos := h.pos_of_read hd hr
    simp only [hr, if_true] at hi hlen ⊢
    by_cases hil : i + 1 < l.length
    · rw [List.getElem?_append_left (by simp; omega), List.getElem?_tail, h.mem _ hil,
        h.nextMem_of_read hr hil]
    · cases hw : s.write x with
      | false => simp [hw] at hi; omega
      | true =>
        obtain rfl : i = l.length - 1 := by simp [hw] at hi; omega
        rw [h.nextMem_of_read_write hd hr hw, if_pos rfl, ← List.length_tail,
          List.getElem?_concat_length]

/-- The refinement: each clock edge without reset takes the abstraction to the next one. -/
lemma Represents.step (h : s.Represents l) (hd : 0 < depth) (hx : x.reset = false) :
    (s.step x).Represents (s.next x l) := by
  have hmem : (s.step x).mem = s.nextMem x := by simp [ScFifo.step, hx]
  have hused : (s.step x).memUsed = s.nextMemUsed x := by simp [ScFifo.step, hx]
  have hlen := h.length_next (x := x) hd
  refine ⟨?_, fun i hi => ?_, fun i hi => ?_⟩
  · have hb := h.bounded
    have hpos := h.pos_of_read (x := x) hd
    have hroom := h.room_of_write (x := x) hd
    split_ifs at hlen with hr hw hw
    · omega
    · omega
    · rcases hroom hw with hroom | ⟨-, hread⟩
      · omega
      · exact absurd hread hr
    · omega
  · rw [hused, h.nextMemUsed_eq hd hi, decide_eq_decide]
    omega
  · rw [hmem]
    exact h.getElem?_next hd hi

/-- What is read is the oldest message. -/
lemma Represents.emitted_eq (h : s.Represents l) (hd : 0 < depth) :
    l = s.emitted x ++ if s.read x then l.tail else l := by
  unfold emitted
  rw [← read_eq]
  cases hr : s.read x with
  | false => rfl
  | true =>
    have hpos := h.pos_of_read hd hr
    have hmem := h.mem 0 hpos
    cases l with
    | nil => exact absurd hpos (Nat.lt_irrefl 0)
    | cons a l =>
      obtain rfl : a = s.mem 0 := by simpa using hmem
      rfl

end Edge

end ScFifo

/-! ## Runs -/

section Run

variable {depth w : ℕ}

/-- The queue in cycle `t` after a reset. -/
def queue (depth : ℕ) (x : ℕ → ScFifo.Inputs w) (t : ℕ) : ScFifo depth w :=
  run ScFifo.step ScFifo.reset x t

/-- The payloads written before cycle `t`, oldest first. -/
def written (depth : ℕ) (x : ℕ → ScFifo.Inputs w) (t : ℕ) : List (BitVec w) :=
  log ScFifo.accepted ScFifo.step (ScFifo.reset : ScFifo depth w) x t

/-- The payloads read before cycle `t`, oldest first. -/
def readOut (depth : ℕ) (x : ℕ → ScFifo.Inputs w) (t : ℕ) : List (BitVec w) :=
  log ScFifo.emitted ScFifo.step (ScFifo.reset : ScFifo depth w) x t

/-- What is read in one cycle. -/
lemma readOut_succ (depth : ℕ) (x : ℕ → ScFifo.Inputs w) (t : ℕ) :
    readOut depth x (t + 1) = readOut depth x t ++ (queue depth x t).emitted (x t) := rfl

/-- The ports show the state of a channel: whether there is a message, the oldest one, and whether
there is room for another one.  With one slot a read makes room in the same cycle. -/
structure Shows (s : ScFifo depth w) (y : ScFifo.Inputs w) (q : Fifo (BitVec w) depth) : Prop where
  outValid : s.outValid = decide (0 < q.items.length)
  outPayload : ∀ a ∈ q.items.head?, s.outPayload = a
  inReady : s.inReady y = (decide (q.items.length < depth) || depth == 1 && s.read y)

variable {x : ℕ → ScFifo.Inputs w} {t : ℕ}

/-- A queue shows the channel that it represents. -/
lemma ScFifo.Represents.shows {s : ScFifo depth w} {l : List (BitVec w)} (h : s.Represents l)
    (hd : 0 < depth) (y : ScFifo.Inputs w) : Shows s y ⟨l, h.bounded⟩ := by
  refine ⟨h.outValid_eq hd, fun a ha => ?_, ?_⟩
  · have hpos : 0 < l.length := by
      cases l with
      | nil => simp at ha
      | cons b l => exact Nat.succ_pos _
    have hmem := h.mem 0 hpos
    rw [← List.head?_eq_getElem?, Option.mem_def.mp ha] at hmem
    exact (Option.some.inj hmem).symm
  · have hb := h.bounded
    unfold ScFifo.inReady ScFifo.full
    split_ifs with h1
    · have hroom : decide (0 < l.length) = !decide (l.length < depth) := by
        rw [← decide_not, decide_eq_decide]
        omega
      rw [h.used 0 hd, hroom]
      cases decide (l.length < depth) <;> cases s.read y <;> simp [h1]
    · have hroom : decide (depth - 1 < l.length) = !decide (l.length < depth) := by
        rw [← decide_not, decide_eq_decide]
        omega
      rw [h.used _ (by omega), hroom]
      simp [h1]

/-- What has been read and what is in the queue is what has been written. -/
lemma exists_represents (hd : 0 < depth) (hx : ∀ t, (x t).reset = false) (t : ℕ) :
    ∃ l, (queue depth x t).Represents l ∧ readOut depth x t ++ l = written depth x t := by
  induction t with
  | zero => exact ⟨[], ScFifo.represents_reset, rfl⟩
  | succ t ih =>
    obtain ⟨l, h, hl⟩ := ih
    refine ⟨(queue depth x t).next (x t) l, h.step hd (hx t), ?_⟩
    calc readOut depth x (t + 1) ++ (queue depth x t).next (x t) l
        = readOut depth x t ++ ((queue depth x t).emitted (x t) ++
            if (queue depth x t).read (x t) then l.tail else l) ++
            (queue depth x t).accepted (x t) := by
          simp only [ScFifo.next, ← List.append_assoc]
          rfl
      _ = written depth x (t + 1) := by
          rw [← h.emitted_eq hd, hl]
          rfl

/-- The queue is a channel for as many messages as it has slots: in every run, for all cycles in
which it is written, read or both, what it emits and what it still holds is what it has accepted, in
the same order, and its ports show what it holds. -/
theorem emits_inOrder (hd : 0 < depth) (hx : ∀ t, (x t).reset = false) (t : ℕ) :
    ∃ q : Fifo (BitVec w) depth, readOut depth x t ++ q.items = written depth x t ∧
      Shows (queue depth x t) (x t) q := by
  obtain ⟨l, h, hl⟩ := exists_represents hd hx t
  exact ⟨⟨l, h.bounded⟩, hl, h.shows hd (x t)⟩

/-- If the output is ready again and again, every message that is written is read in its turn. -/
theorem emits_all (hd : 0 < depth) (hx : ∀ t, (x t).reset = false)
    (hready : ∀ t, ∃ u, t ≤ u ∧ (x u).outReady = true) {k : ℕ} {a : BitVec w}
    (hk : (written depth x t)[k]? = some a) : ∃ u, (readOut depth x u)[k]? = some a := by
  have hlater : ∀ u, t ≤ u → (written depth x u)[k]? = some a := by
    intro u htu
    obtain ⟨l, hl⟩ : written depth x t <+: written depth x u := log_mono htu
    rw [← hl, List.getElem?_append_left (List.getElem?_eq_some_iff.mp hk).1, hk]
  have hcount : ∀ j ≤ k + 1, ∃ u, t ≤ u ∧ j ≤ (readOut depth x u).length := by
    intro j
    induction j with
    | zero => exact fun _ => ⟨t, le_rfl, Nat.zero_le _⟩
    | succ j ih =>
      intro hj
      obtain ⟨u, htu, hu⟩ := ih (by omega)
      obtain ⟨v, huv, hv⟩ := hready u
      have hgrown : (readOut depth x u).length ≤ (readOut depth x v).length :=
        (log_mono huv : readOut depth x u <+: readOut depth x v).length_le
      by_cases hjv : j + 1 ≤ (readOut depth x v).length
      · exact ⟨v, by omega, hjv⟩
      -- the message is still in the queue, so that something is read in cycle `v`
      obtain ⟨l, h, hl⟩ := exists_represents (x := x) hd hx v
      have hkv := (List.getElem?_eq_some_iff.mp (hlater v (by omega))).1
      have hlen := congrArg List.length hl
      rw [List.length_append] at hlen
      have hemitted : ((queue depth x v).emitted (x v)).length = 1 := by
        rw [ScFifo.emitted, h.outValid_eq hd, decide_eq_true (by omega), hv]
        rfl
      refine ⟨v + 1, by omega, ?_⟩
      rw [readOut_succ, List.length_append, hemitted]
      omega
  obtain ⟨u, htu, hu⟩ := hcount (k + 1) le_rfl
  obtain ⟨l, -, hl⟩ := exists_represents (x := x) hd hx u
  refine ⟨u, ?_⟩
  rw [← hlater u htu, ← hl, List.getElem?_append_left hu]

end Run

/-! ### Two slots -/

/-- The queue is offered the number of the cycle in every cycle, and read from cycle 2 on. -/
def traffic (t : ℕ) : ScFifo.Inputs 8 :=
  { reset := false, inPayload := BitVec.ofNat 8 t, inValid := true, outReady := decide (2 ≤ t) }

/-- In cycle 2 the queue is full and accepts nothing. -/
theorem emits_inOrder_traffic : written 2 traffic 4 = [0, 1, 3] ∧
    ∃ q : Fifo (BitVec 8) 2, readOut 2 traffic 4 ++ q.items = written 2 traffic 4 ∧
      Shows (queue 2 traffic 4) (traffic 4) q :=
  ⟨by decide, emits_inOrder (by decide) (fun _ => rfl) 4⟩

/-- The third message is the one from cycle 3. -/
theorem emits_all_traffic : ∃ u, (readOut 2 traffic u)[2]? = some 3 :=
  emits_all (t := 4) (by decide) (fun _ => rfl)
    (fun t => ⟨t + 2, Nat.le_add_right t 2, by simp [traffic]⟩) (by decide)

end CyclonRtes.Interconnect
