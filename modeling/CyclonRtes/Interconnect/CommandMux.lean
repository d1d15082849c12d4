import Mathlib.Data.List.FinRange
import CyclonRtes.Interconnect.Arbitrator

/-!
# The command multiplexer of the interconnect

Between the two processors of the multiprocessor system and a component that both have access to,
the generated interconnect has a multiplexer, `soc_system_mm_interconnect_0_cmd_mux_001.sv`.  Its
sinks are the commands of the processors; the arbiter decides a cycle in advance which sink is
connected to the source.  Here the number of sinks is a parameter.

The counting programs rely on it that accesses reach a component one at a time.  The multiplexer
sees to that: it passes on one sink at a time, whole packets of it, and all of them
(`forwards_wholePackets`).  While a sink waits, each of the others gets ahead of it once at most
(`lastCycles_lt_of_waits`), and if packets come to an end, every sink is served (`exists_accepts`).
-/

namespace CyclonRtes.Interconnect

open Arbitration Bits Synchronous

/-! ## The multiplexer -/

/-- `{channel, data, startofpacket, endofpacket}` of a sink or of the source. -/
abbrev Payload := BitVec 113

/-- `endofpacket`. -/
def Payload.endofpacket (p : Payload) : Bool := p.getLsbD 0

/-- The bit `PKT_TRANS_LOCK` of `data`. -/
def Payload.lock (p : Payload) : Bool := p.getLsbD (58 + 2)

/-- The payload is the last one of its packet, and the sink does not keep the lock. -/
def Payload.ends (p : Payload) : Bool := p.endofpacket && !p.lock

/-- What a sink shows in one clock cycle. -/
structure Sink where
  valid : Bool
  payload : Payload
  deriving DecidableEq, Repr

/-- The inputs of the multiplexer in one clock cycle. -/
structure Inputs (n : ℕ) where
  reset : Bool
  sink : Fin n → Sink
  srcReady : Bool

/-- The registers of the multiplexer and of its arbiter. -/
structure CmdMux (n : ℕ) where
  savedGrant : BitVec n
  locked : BitVec n
  packetInProgress : Bool
  shareCount : BitVec 1
  shareCountZeroFlag : Bool
  topPriorityReg : BitVec n
  deriving DecidableEq, Repr

variable {n w : ℕ}

/-- The vector with the bits `f 0`, `f 1` and so on. -/
def vector (f : Fin n → Bool) : BitVec n :=
  assignBits 0 (List.range n) fun i => if h : i < n then f ⟨i, h⟩ else false

/-- The words `f i` that are selected by `g`, implemented as a sum of products. -/
def sumOfProducts (g : BitVec n) (f : Fin n → BitVec w) : BitVec w :=
  (List.finRange n).foldl (fun sum (i : Fin n) => sum ||| if g.getLsbD i then f i else 0) 0

/-- `valid`. -/
def Inputs.valid (x : Inputs n) : BitVec n := vector fun i => (x.sink i).valid

/-- `lock`. -/
def Inputs.lock (x : Inputs n) : BitVec n := vector fun i => (x.sink i).payload.lock

/-- `share_0`, `share_1` and so on. -/
def share (_ : Fin n) : BitVec 1 := 0

namespace CmdMux

/-- `request`, with `PIPELINE_ARB` set. -/
def request (s : CmdMux n) (x : Inputs n) : BitVec n := x.valid ||| s.locked

/-- `next_grant`. -/
def nextGrant (s : CmdMux n) (x : Inputs n) : BitVec n := grant (s.request x) s.topPriorityReg

/-- `src_valid`. -/
def srcValid (s : CmdMux n) (x : Inputs n) : Bool := s.savedGrant &&& x.valid != 0

/-- `src_payload`. -/
def srcPayload (s : CmdMux n) (x : Inputs n) : Payload :=
  sumOfProducts s.savedGrant fun i => (x.sink i).payload

/-- `last_cycle`. -/
def lastCycle (s : CmdMux n) (x : Inputs n) : Bool :=
  s.srcValid x && x.srcReady && (s.srcPayload x).endofpacket && !(x.lock &&& s.savedGrant != 0)

/-- `next_grant_share`. -/
def nextGrantShare (s : CmdMux n) (x : Inputs n) : BitVec 1 := sumOfProducts (s.nextGrant x) share

/-- `p1_share_count`. -/
def p1ShareCount (s : CmdMux n) : BitVec 1 := if s.shareCountZeroFlag then 0 else s.shareCount - 1

/-- `update_grant`. -/
def updateGrant (s : CmdMux n) (x : Inputs n) : Bool :=
  !s.packetInProgress && !s.srcValid x || s.lastCycle x && s.shareCountZeroFlag

/-- `sink0_ready`, `sink1_ready` and so on. -/
def sinkReady (s : CmdMux n) (x : Inputs n) (i : Fin n) : Bool :=
  x.srcReady && s.savedGrant.getLsbD i

/-- The registers after a reset. -/
def reset : CmdMux n := ⟨0, 0, false, 0, true, 1⟩

/-- One rising edge of `clk`. -/
def step (s : CmdMux n) (x : Inputs n) : CmdMux n :=
  if x.reset then reset
  else
    { savedGrant := if s.updateGrant x then s.nextGrant x else s.savedGrant
      locked := s.nextGrant x &&& x.lock
      packetInProgress :=
        if s.lastCycle x then false else if s.srcValid x then true else s.packetInProgress
      shareCount :=
        if s.updateGrant x then s.nextGrantShare x
        else if s.lastCycle x then s.p1ShareCount else s.shareCount
      shareCountZeroFlag :=
        if s.updateGrant x then s.nextGrantShare x == 0
        else if s.lastCycle x then s.p1ShareCount == 0 else s.shareCountZeroFlag
      topPriorityReg := nextTopPriority (s.request x) s.topPriorityReg (s.updateGrant x) }

/-- The sink `i` transfers its payload. -/
def accepts (s : CmdMux n) (x : Inputs n) (i : Fin n) : Bool :=
  s.sinkReady x i && (x.sink i).valid

/-- The payloads that the sinks transfer in the cycle. -/
def accepted (s : CmdMux n) (x : Inputs n) : List (Fin n × Payload) :=
  ((List.finRange n).filter (s.accepts x)).map fun i => (i, (x.sink i).payload)

/-- The payload that the source transfers in the cycle. -/
def sent (s : CmdMux n) (x : Inputs n) : List Payload :=
  if s.srcValid x && x.srcReady then [s.srcPayload x] else []

end CmdMux

/-! ## Selection -/

section Selection

variable {i : Fin n}

/-- The bits of a vector. -/
lemma getLsbD_vector (f : Fin n → Bool) (i : Fin n) : (vector f).getLsbD i = f i := by
  unfold vector
  rw [getLsbD_assignBits _ _ _ i.isLt, if_pos (List.mem_range.mpr i.isLt), dif_pos i.isLt]

/-- The bits of a disjunction of words. -/
lemma getLsbD_foldl_or {α : Type*} (l : List α) (f : α → BitVec w) (v : BitVec w) (k : ℕ) :
    (l.foldl (fun sum a => sum ||| f a) v).getLsbD k =
      (v.getLsbD k || l.any fun a => (f a).getLsbD k) := by
  induction l generalizing v with
  | nil => simp
  | cons a l ih => rw [List.foldl_cons, ih, BitVec.getLsbD_or, List.any_cons, Bool.or_assoc]

/-- With a single bit the sum of products is the word that is selected. -/
lemma sumOfProducts_twoPow (f : Fin n → BitVec w) (i : Fin n) :
    sumOfProducts (BitVec.twoPow n i) f = f i := by
  apply BitVec.eq_of_getLsbD_eq
  intro k hk
  unfold sumOfProducts
  rw [getLsbD_foldl_or, BitVec.ofNat_eq_ofNat, BitVec.getLsbD_zero, Bool.false_or,
    Bool.eq_iff_iff, List.any_eq_true]
  constructor
  · rintro ⟨j, -, hj⟩
    by_cases hij : i = j
    · simpa [hij] using hj
    · simp [Fin.val_ne_of_ne (Ne.symm hij)] at hj
  · intro hi
    exact ⟨i, List.mem_finRange i, by simpa [BitVec.getLsbD_twoPow] using hi⟩

/-- Adding up zeros gives zero. -/
lemma sumOfProducts_zero (g : BitVec n) : sumOfProducts g share = 0 := by
  apply BitVec.eq_of_getLsbD_eq
  intro k hk
  unfold sumOfProducts share
  rw [getLsbD_foldl_or]
  simp

/-- A single bit is in common with a vector if it is set there. -/
lemma twoPow_and_ne_zero (v : BitVec n) (i : Fin n) :
    (BitVec.twoPow n i &&& v != 0) = v.getLsbD i := by
  rw [Bool.eq_iff_iff, bne_iff_ne]
  constructor
  · intro hne
    by_contra hi
    refine hne (BitVec.eq_of_getLsbD_eq fun k hk => ?_)
    rw [BitVec.getLsbD_and, BitVec.getLsbD_twoPow, BitVec.ofNat_eq_ofNat, BitVec.getLsbD_zero]
    by_cases hik : i.val = k
    · rw [← hik, Bool.eq_false_iff.mpr hi, Bool.and_false]
    · rw [decide_eq_false hik, Bool.and_false, Bool.false_and]
  · intro hi hzero
    have hbit := congrArg (fun u : BitVec n => u.getLsbD i) hzero
    simp only [BitVec.getLsbD_and, BitVec.getLsbD_twoPow, hi, i.isLt] at hbit
    simp at hbit

/-- Different places have different bits. -/
lemma twoPow_inj {p q : ℕ} (hp : p < n) (h : BitVec.twoPow n p = BitVec.twoPow n q) : p = q := by
  have hbit := congrArg (fun u : BitVec n => u.getLsbD p) h
  simp only [BitVec.getLsbD_twoPow, hp, decide_true, Bool.true_and] at hbit
  simp_all

/-- A place is not empty. -/
lemma twoPow_ne_zero (i : Fin n) : BitVec.twoPow n i ≠ 0 := by
  intro hzero
  have hbit := congrArg (fun u : BitVec n => u.getLsbD i) hzero
  simp at hbit

/-- Of all sinks, those that satisfy a condition that only one can satisfy. -/
lemma filter_finRange {p : Fin n → Bool} {i : Fin n} (h : ∀ j, p j = true → j = i) :
    (List.finRange n).filter p = if p i then [i] else [] := by
  split_ifs with hi
  · have hp : p = (· == i) := by
      funext j
      rw [Bool.eq_iff_iff, beq_iff_eq]
      exact ⟨h j, fun hj => hj ▸ hi⟩
    rw [hp, List.filter_beq, List.count_eq_one_of_mem (List.nodup_finRange n)
      (List.mem_finRange i)]
    rfl
  · exact List.filter_eq_nil_iff.mpr fun j _ hj => hi (h j hj ▸ hj)

end Selection

/-! ## One cycle -/

section Cycle

variable {s : CmdMux n} {x : Inputs n} {i j : Fin n}

namespace CmdMux

/-- Nothing is connected to the source, or one sink is; the priority is at one place, behind the
sink that is connected; each sink has one share. -/
structure Sound (s : CmdMux n) : Prop where
  grant : s.savedGrant = 0 ∨ ∃ i : Fin n, s.savedGrant = BitVec.twoPow n i
  priority : ∃ p < n, s.topPriorityReg = BitVec.twoPow n p
  behind : ∀ i : Fin n, s.savedGrant = BitVec.twoPow n i →
    s.topPriorityReg = BitVec.twoPow n (next n i)
  share : s.shareCountZeroFlag = true

/-- After a reset no sink is connected. -/
lemma sound_reset (hn : 0 < n) : (reset : CmdMux n).Sound :=
  ⟨.inl rfl, ⟨0, hn, BitVec.twoPow_zero.symm⟩, fun i hi => absurd hi.symm (twoPow_ne_zero i), rfl⟩

/-- The source is valid if the sink that is connected is. -/
lemma srcValid_of_grant (h : s.savedGrant = BitVec.twoPow n i) :
    s.srcValid x = (x.sink i).valid := by
  rw [srcValid, h, twoPow_and_ne_zero, Inputs.valid, getLsbD_vector]

/-- The source shows the payload of the sink that is connected. -/
lemma srcPayload_of_grant (h : s.savedGrant = BitVec.twoPow n i) :
    s.srcPayload x = (x.sink i).payload := by
  rw [srcPayload, h, sumOfProducts_twoPow]

/-- The last cycle of a packet is the one in which its last payload is transferred. -/
lemma lastCycle_of_grant (h : s.savedGrant = BitVec.twoPow n i) :
    s.lastCycle x = ((x.sink i).valid && x.srcReady && (x.sink i).payload.ends) := by
  rw [lastCycle, srcValid_of_grant h, srcPayload_of_grant h, BitVec.and_comm, h, twoPow_and_ne_zero,
    Inputs.lock, getLsbD_vector, Payload.ends, Bool.and_assoc]

/-- The sink that is connected is ready when the source is, the others are not. -/
lemma sinkReady_of_grant (h : s.savedGrant = BitVec.twoPow n i) :
    s.sinkReady x j = (x.srcReady && j == i) := by
  have hbit : (BitVec.twoPow n i).getLsbD j = (j == i) := by
    rw [BitVec.getLsbD_twoPow, decide_eq_true i.isLt, Bool.true_and, Bool.eq_iff_iff,
      decide_eq_true_eq, beq_iff_eq, Fin.ext_iff]
    exact eq_comm
  rw [sinkReady, h, hbit]

/-- Without a connection nothing is transferred. -/
lemma idle_of_grant (h : s.savedGrant = 0) :
    s.srcValid x = false ∧ s.lastCycle x = false ∧ ∀ i, s.sinkReady x i = false := by
  have hvalid : s.srcValid x = false := by simp [srcValid, h]
  exact ⟨hvalid, by simp [lastCycle, hvalid], fun i => by simp [sinkReady, h]⟩

/-- What the sinks transfer is what the sink transfers that is connected. -/
lemma accepted_of_grant (h : s.savedGrant = BitVec.twoPow n i) :
    s.accepted x =
      if (x.sink i).valid && x.srcReady then [(i, (x.sink i).payload)] else [] := by
  have haccepts : ∀ j, s.accepts x j = (x.srcReady && j == i && (x.sink j).valid) := fun j => by
    rw [accepts, sinkReady_of_grant h]
  have hsingle : ∀ j, s.accepts x j = true → j = i := by
    intro j hj
    rw [haccepts, Bool.and_eq_true, Bool.and_eq_true, beq_iff_eq] at hj
    exact hj.1.2
  rw [accepted, filter_finRange hsingle, haccepts, beq_self_eq_true, Bool.and_true, Bool.and_comm]
  split_ifs <;> rfl

/-- What a sink transfers is found among what the sinks transfer. -/
lemma filter_accepted (s : CmdMux n) (x : Inputs n) (i : Fin n) :
    ((s.accepted x).filter fun a => decide (a.1 = i)).map Prod.snd =
      if s.accepts x i then [(x.sink i).payload] else [] := by
  have hsingle : ∀ j, (decide (j = i) && s.accepts x j) = true → j = i := by
    intro j hj
    rw [Bool.and_eq_true, decide_eq_true_eq] at hj
    exact hj.1
  rw [accepted, List.filter_map, List.filter_filter]
  simp only [Function.comp_apply]
  rw [filter_finRange hsingle, decide_eq_true rfl, Bool.true_and]
  split_ifs <;> rfl

/-- Without a connection the sinks transfer nothing. -/
lemma accepted_of_idle (h : s.savedGrant = 0) : s.accepted x = [] := by
  have haccepts : ∀ j ∈ List.finRange n, ¬ s.accepts x j = true := by
    intro j _
    rw [accepts, (idle_of_grant h).2.2]
    exact Bool.false_ne_true
  rw [accepted, List.filter_eq_nil_iff.mpr haccepts, List.map_nil]

/-- No two payloads are transferred in one cycle. -/
lemma Sound.isChain_accepted (hs : s.Sound) (x : Inputs n)
    (R : Fin n × Payload → Fin n × Payload → Prop) : (s.accepted x).IsChain R := by
  rcases hs.grant with h | ⟨i, h⟩
  · rw [accepted_of_idle h]
    exact List.isChain_nil
  · rw [accepted_of_grant h]
    split_ifs
    · exact List.isChain_singleton _
    · exact List.isChain_nil

/-- The source transfers what the sinks transfer. -/
lemma Sound.sent_eq (hs : s.Sound) (x : Inputs n) : s.sent x = (s.accepted x).map Prod.snd := by
  rcases hs.grant with h | ⟨i, h⟩
  · rw [accepted_of_idle h, sent, (idle_of_grant h).1]
    rfl
  · rw [accepted_of_grant h, sent, srcValid_of_grant h, srcPayload_of_grant h]
    split_ifs <;> rfl

/-- With one share for each sink a decision is made whenever no packet is under way or one ends. -/
lemma Sound.updateGrant_eq (hs : s.Sound) (x : Inputs n) :
    s.updateGrant x = (!s.packetInProgress && !s.srcValid x || s.lastCycle x) := by
  rw [updateGrant, hs.share, Bool.and_true]

/-- Without a decision connection and priority stay as they are. -/
lemma step_of_not_update (hx : x.reset = false) (hu : s.updateGrant x = false) :
    (s.step x).savedGrant = s.savedGrant ∧ (s.step x).topPriorityReg = s.topPriorityReg := by
  simp [step, hx, hu, nextTopPriority]

/-- A decision is for the first sink that requests, if there is any. -/
lemma step_of_first {p : ℕ} (hx : x.reset = false) (hu : s.updateGrant x = true) (hp : p < n)
    (hprio : s.topPriorityReg = BitVec.twoPow n p)
    (hi : First n (Interconnect.Requests (s.request x)) p i) :
    (s.step x).savedGrant = BitVec.twoPow n i ∧
      (s.step x).topPriorityReg = BitVec.twoPow n (next n i) := by
  constructor
  · simp only [step, hx, hu, nextGrant, hprio, grant_eq_twoPow hp hi]
    rfl
  · simp only [step, hx, hu, hprio, nextTopPriority_of_first hp hi]
    rfl

/-- If no sink requests, no sink is connected. -/
lemma step_of_no_request (hx : x.reset = false) (hu : s.updateGrant x = true)
    (hr : s.request x = 0) :
    (s.step x).savedGrant = 0 ∧ (s.step x).topPriorityReg = s.topPriorityReg := by
  constructor
  · simp only [step, hx, hu, nextGrant, hr]
    exact grant_zero _
  · simp [step, hx, hu, nextTopPriority, hr]

/-- There is a request at some place, or none at all. -/
lemma request_cases (r : BitVec n) : r = 0 ∨ ∃ i < n, Interconnect.Requests r i := by
  by_cases h : ∃ i < n, Interconnect.Requests r i
  · exact .inr h
  · refine .inl (BitVec.eq_of_getLsbD_eq fun k hk => ?_)
    rw [BitVec.ofNat_eq_ofNat, BitVec.getLsbD_zero]
    exact Bool.eq_false_iff.mpr fun hr => h ⟨k, hk, hr⟩

/-- The step lemma of the invariant. -/
lemma Sound.step (hs : s.Sound) (hx : x.reset = false) : (s.step x).Sound := by
  have hshare : (s.step x).shareCountZeroFlag = true := by
    have hnext : s.nextGrantShare x = 0 := sumOfProducts_zero _
    simp [CmdMux.step, hx, hnext, p1ShareCount, hs.share]
  obtain ⟨p, hp, hprio⟩ := hs.priority
  cases hu : s.updateGrant x with
  | false =>
    obtain ⟨hg, ht⟩ := step_of_not_update hx hu
    refine ⟨by rw [hg]; exact hs.grant, ⟨p, hp, ht.trans hprio⟩, fun i hi => ?_, hshare⟩
    exact ht.trans (hs.behind i (hg.symm.trans hi))
  | true =>
    rcases request_cases (s.request x) with hr | ⟨i, hi, hr⟩
    · obtain ⟨hg, ht⟩ := step_of_no_request hx hu hr
      exact ⟨.inl hg, ⟨p, hp, ht.trans hprio⟩,
        fun i hi => absurd (hg.symm.trans hi).symm (twoPow_ne_zero i), hshare⟩
    · obtain ⟨j, hj⟩ := exists_first p hi hr
      obtain ⟨hg, ht⟩ := step_of_first (i := ⟨j, hj.lt⟩) hx hu hp hprio hj
      refine ⟨.inr ⟨_, hg⟩, ⟨_, next_lt hj.lt, ht⟩, fun i hi => ?_, hshare⟩
      rw [← twoPow_inj hj.lt (hg.symm.trans hi)]
      exact ht

/-- A packet that is under way and does not end keeps the connection. -/
lemma Sound.kept (hs : s.Sound) (hx : x.reset = false) (h : s.savedGrant = BitVec.twoPow n i)
    (hbusy : s.packetInProgress = true ∨ (x.sink i).valid = true) (hl : s.lastCycle x = false) :
    (s.step x).savedGrant = BitVec.twoPow n i ∧ (s.step x).packetInProgress = true := by
  have hvalid := srcValid_of_grant (x := x) h
  have hu : s.updateGrant x = false := by
    rw [hs.updateGrant_eq, hl, hvalid]
    rcases hbusy with hbusy | hbusy <;> simp [hbusy]
  refine ⟨(step_of_not_update hx hu).1.trans h, ?_⟩
  simp only [CmdMux.step, hx, hl, hvalid]
  rcases hbusy with hbusy | hbusy <;> simp [hbusy]

end CmdMux

end Cycle

/-! ## Runs -/

/-- The multiplexer in cycle `t` after a reset. -/
def mux (x : ℕ → Inputs n) (t : ℕ) : CmdMux n := run CmdMux.step CmdMux.reset x t

/-- The payloads that the sinks have transferred before cycle `t`, oldest first. -/
def transfers (x : ℕ → Inputs n) (t : ℕ) : List (Fin n × Payload) :=
  log CmdMux.accepted CmdMux.step CmdMux.reset x t

/-- The payloads that the source has transferred before cycle `t`, oldest first. -/
def output (x : ℕ → Inputs n) (t : ℕ) : List Payload :=
  log CmdMux.sent CmdMux.step CmdMux.reset x t

/-- What the sinks have transferred leaves the multiplexer in the same order, once and unchanged,
and between the payloads of a packet there is none of another sink. -/
structure Forwarded (transfers : List (Fin n × Payload)) (output : List Payload) : Prop where
  inOrder : output = transfers.map Prod.snd
  whole : transfers.IsChain fun a b => a.2.ends = false → b.1 = a.1

/-- The sink of a packet that is under way is connected. -/
def Engaged (s : CmdMux n) (transfers : List (Fin n × Payload)) : Prop :=
  ∀ a ∈ transfers.getLast?, a.2.ends = false →
    s.savedGrant = BitVec.twoPow n a.1 ∧ s.packetInProgress = true

section Run

variable {x : ℕ → Inputs n} {i : Fin n} {a b t : ℕ}

/-- The sinks' side of one cycle. -/
lemma transfers_succ (x : ℕ → Inputs n) (t : ℕ) :
    transfers x (t + 1) = transfers x t ++ (mux x t).accepted (x t) := rfl

/-- The source's side of one cycle. -/
lemma output_succ (x : ℕ → Inputs n) (t : ℕ) :
    output x (t + 1) = output x t ++ (mux x t).sent (x t) := rfl

/-- The invariant holds in every cycle. -/
lemma sound_mux (hn : 0 < n) (hx : ∀ t, (x t).reset = false) (t : ℕ) : (mux x t).Sound := by
  induction t with
  | zero => exact CmdMux.sound_reset hn
  | succ t ih => exact ih.step (hx t)

/-- The next transfer belongs to the packet that is under way, if there is one. -/
lemma Engaged.step {s : CmdMux n} {y : Inputs n} {l : List (Fin n × Payload)} (hs : s.Sound)
    (hy : y.reset = false) (h : Engaged s l) :
    Engaged (s.step y) (l ++ s.accepted y) ∧
      ∀ a ∈ l.getLast?, ∀ b ∈ (s.accepted y).head?, a.2.ends = false → b.1 = a.1 := by
  rcases hs.grant with hg | ⟨i, hg⟩
  · -- nothing is connected, so no packet is under way
    rw [CmdMux.accepted_of_idle hg, List.append_nil]
    refine ⟨fun a ha hends => ?_, fun a _ b hb => by simp at hb⟩
    exact absurd (hg.symm.trans (h a ha hends).1).symm (twoPow_ne_zero a.1)
  · rw [CmdMux.accepted_of_grant hg]
    split_ifs with htransfer
    · rw [Bool.and_eq_true] at htransfer
      refine ⟨fun a ha hends => ?_, fun a ha b hb hends => ?_⟩
      · obtain rfl : (i, (y.sink i).payload) = a := by simpa using ha
        refine hs.kept hy hg (.inr htransfer.1) ?_
        rw [CmdMux.lastCycle_of_grant hg, hends, Bool.and_false]
      · obtain rfl : (i, (y.sink i).payload) = b := by simpa using hb
        have hi := (h a ha hends).1
        exact Fin.ext (twoPow_inj i.isLt (hg.symm.trans hi))
    · rw [List.append_nil]
      refine ⟨fun a ha hends => ?_, fun a _ b hb => by simp at hb⟩
      obtain ⟨hi, hbusy⟩ := h a ha hends
      have hlast : s.lastCycle y = false := by
        rw [CmdMux.lastCycle_of_grant hg, Bool.eq_false_iff.mpr htransfer, Bool.false_and]
      exact hs.kept hy hi (.inl hbusy) hlast

/-- What the sinks have transferred is forwarded. -/
lemma forwarded (hn : 0 < n) (hx : ∀ t, (x t).reset = false) (t : ℕ) :
    Forwarded (transfers x t) (output x t) := by
  suffices h : Forwarded (transfers x t) (output x t) ∧ Engaged (mux x t) (transfers x t) from h.1
  induction t with
  | zero => exact ⟨⟨rfl, List.isChain_nil⟩, fun a ha => by simp [transfers] at ha⟩
  | succ t ih =>
    obtain ⟨⟨horder, hwhole⟩, hengaged⟩ := ih
    have hs := sound_mux hn hx t
    obtain ⟨hengaged', hnext⟩ := hengaged.step hs (hx t)
    have hwhole' := List.isChain_append.mpr ⟨hwhole, hs.isChain_accepted (x t) _, hnext⟩
    refine ⟨⟨?_, hwhole'⟩, hengaged'⟩
    rw [output_succ, transfers_succ, horder, hs.sent_eq, List.map_append]

/-- The multiplexer passes on one sink at a time, whole packets of it, and everything that the sinks
transfer, for all commands and all pauses of the sinks and of the source. -/
theorem forwards_wholePackets (hn : 0 < n) (hx : ∀ t, (x t).reset = false) (t : ℕ) :
    Forwarded (transfers x t) (output x t) ∧ ∀ i j, (mux x t).sinkReady (x t) i = true →
      (mux x t).sinkReady (x t) j = true → i = j := by
  refine ⟨forwarded hn hx t, fun i j hi hj => ?_⟩
  rcases (sound_mux hn hx t).grant with hg | ⟨k, hg⟩
  · rw [(CmdMux.idle_of_grant hg).2.2] at hi
    exact absurd hi Bool.false_ne_true
  · rw [CmdMux.sinkReady_of_grant hg, Bool.and_eq_true, beq_iff_eq] at hi hj
    exact hi.2.trans hj.2.symm

/-! ### Waiting -/

/-- The sink `i` shows a payload in cycle `t` that is not transferred. -/
def Waits (x : ℕ → Inputs n) (i : Fin n) (t : ℕ) : Prop :=
  ((x t).sink i).valid = true ∧ (mux x t).accepts (x t) i = false

/-- The arbiter is an abstract round robin: with every decision the priority moves behind the sink
that becomes connected. -/
lemma exists_priority (hn : 0 < n) (hx : ∀ t, (x t).reset = false) :
    ∃ p : ℕ → ℕ, (∀ t, p t < n) ∧ (∀ t, (mux x t).topPriorityReg = BitVec.twoPow n (p t)) ∧
      (∀ t, (mux x t).updateGrant (x t) = false → p (t + 1) = p t) ∧
      ∀ t j, (mux x t).updateGrant (x t) = true →
        First n (Requests ((mux x t).request (x t))) (p t) j →
        p (t + 1) = next n j ∧ (mux x (t + 1)).savedGrant = BitVec.twoPow n j := by
  choose p hp hprio using fun t => (sound_mux hn hx t).priority
  refine ⟨p, hp, hprio, fun t hu => ?_, fun t j hu hj => ?_⟩
  · have hkeep := (CmdMux.step_of_not_update (hx t) hu).2
    exact twoPow_inj (hp (t + 1)) ((hprio (t + 1)).symm.trans (hkeep.trans (hprio t)))
  · obtain ⟨hg, hnext⟩ := CmdMux.step_of_first (i := ⟨j, hj.lt⟩) (hx t) hu (hp t) (hprio t) hj
    exact ⟨twoPow_inj (hp (t + 1)) ((hprio (t + 1)).symm.trans hnext), hg⟩

/-- A sink that waits requests. -/
lemma Waits.requests (h : Waits x i t) : Requests ((mux x t).request (x t)) i := by
  rw [Requests, CmdMux.request, BitVec.getLsbD_or, Inputs.valid, getLsbD_vector, h.1, Bool.true_or]

/-- While the sink that is connected waits, it stays connected and no packet ends. -/
lemma connected_of_waits (hn : 0 < n) (hx : ∀ t, (x t).reset = false)
    (hg : (mux x a).savedGrant = BitVec.twoPow n i) (hab : a ≤ b)
    (hw : ∀ t, a ≤ t → t < b → Waits x i t) :
    (mux x b).savedGrant = BitVec.twoPow n i ∧
      ∀ t, a ≤ t → t < b → (mux x t).lastCycle (x t) = false := by
  induction b, hab using Nat.le_induction with
  | base => exact ⟨hg, fun t hat hta => absurd hta (Nat.not_lt.mpr hat)⟩
  | succ b hab ih =>
    obtain ⟨hb, hlast⟩ := ih fun t hat htb => hw t hat (Nat.lt_succ_of_lt htb)
    obtain ⟨hvalid, hno⟩ := hw b hab (Nat.lt_succ_self b)
    have hlastb : (mux x b).lastCycle (x b) = false := by
      rw [CmdMux.accepts, CmdMux.sinkReady_of_grant hb] at hno
      rw [CmdMux.lastCycle_of_grant hb]
      simp_all
    refine ⟨((sound_mux hn hx b).kept (hx b) hb (.inr hvalid) hlastb).1, fun t hat htb => ?_⟩
    rcases Nat.lt_succ_iff_lt_or_eq.mp htb with htb | rfl
    · exact hlast t hat htb
    · exact hlastb

/-- While a sink waits, at most one packet ends for each place between the priority and the sink,
and one more. -/
lemma lastCycles_le_distance (hx : ∀ t, (x t).reset = false) (hab : a ≤ b)
    (hw : ∀ t, a ≤ t → t < b → Waits x i t) {q : ℕ} (hq : q < n)
    (hprio : (mux x a).topPriorityReg = BitVec.twoPow n q) :
    highCycles (fun t => (mux x t).lastCycle (x t)) a b ≤ distance n q i + 1 := by
  have hn : 0 < n := i.pos
  obtain ⟨p, hp, hpa, hkeep, hnext⟩ := exists_priority hn hx
  obtain rfl : q = p a := twoPow_inj hq (hprio.symm.trans (hpa a))
  have hnext' := fun t j hu hj => (hnext t j hu hj).1
  have hdecides : ∀ t, (mux x t).lastCycle (x t) = true → (mux x t).updateGrant (x t) = true := by
    intro t ht
    rw [(sound_mux hn hx t).updateGrant_eq, ht, Bool.or_true]
  by_cases hex : ∃ t, a ≤ t ∧ t < b ∧ (mux x t).updateGrant (x t) = true ∧
      First n (Requests ((mux x t).request (x t))) (p t) i
  · -- the first decision for the sink `i` is in cycle `c`; from then on it is connected
    classical
    obtain ⟨hac, hcb, huc, hc⟩ := Nat.find_spec hex
    have hmin := fun t (ht : t < Nat.find hex) => Nat.find_min hex ht
    generalize Nat.find hex = c at *
    have hbefore := distance_add_highCycles_le hp hkeep hnext' i.isLt hac
      (fun t hat htc => (hw t hat (by omega)).requests)
      fun t hat htc hu hfirst => hmin t htc ⟨hat, by omega, hu, hfirst⟩
    have hle := highCycles_mono hdecides a c
    have hafter : highCycles (fun t => (mux x t).lastCycle (x t)) (c + 1) b = 0 :=
      highCycles_eq_zero (connected_of_waits hn hx (hnext c i huc hc).2 hcb
        fun t hct htb => hw t (by omega) htb).2
    rw [highCycles_add (show a ≤ c + 1 by omega) hcb, hafter, highCycles_succ hac]
    split_ifs <;> omega
  · have hle := distance_add_highCycles_le hp hkeep hnext' i.isLt hab
      (fun t hat htb => (hw t hat htb).requests)
      fun t hat htb hu hfirst => hex ⟨t, hat, htb, hu, hfirst⟩
    have hmono := highCycles_mono hdecides a b
    omega

/-- The packet that ends while a sink waits is that of another sink, and the priority is behind that
sink. -/
lemma exists_behind_of_lastCycle (hn : 0 < n) (hx : ∀ t, (x t).reset = false) (hw : Waits x i t)
    (hlast : (mux x t).lastCycle (x t) = true) :
    ∃ j : Fin n, i ≠ j ∧ (mux x t).topPriorityReg = BitVec.twoPow n (next n j) := by
  have hs := sound_mux hn hx t
  rcases hs.grant with hg | ⟨j, hg⟩
  · rw [(CmdMux.idle_of_grant hg).2.1] at hlast
    exact absurd hlast Bool.false_ne_true
  · refine ⟨j, ?_, hs.behind j hg⟩
    rintro rfl
    have hno := hw.2
    rw [CmdMux.accepts, CmdMux.sinkReady_of_grant hg] at hno
    rw [CmdMux.lastCycle_of_grant hg] at hlast
    simp_all

/-- A sink does not wait for ever, if every packet that is under way comes to its end. -/
lemma exists_not_waits (hx : ∀ t, (x t).reset = false)
    (hends : ∀ t, (mux x t).srcValid (x t) = true ∨ (mux x t).packetInProgress = true →
      ∃ u, t ≤ u ∧ (mux x u).lastCycle (x u) = true) : ∃ t, a ≤ t ∧ ¬ Waits x i t := by
  by_contra hno
  have hw : ∀ t, a ≤ t → Waits x i t := fun t hat => by
    by_contra hnot
    exact hno ⟨t, hat, hnot⟩
  have hn : 0 < n := i.pos
  obtain ⟨p, hp, -, hkeep, hnext⟩ := exists_priority hn hx
  have hagain : ∀ t, ∃ u, t ≤ u ∧ (mux x u).updateGrant (x u) = true := by
    intro t
    by_cases hbusy : (mux x t).srcValid (x t) = true ∨ (mux x t).packetInProgress = true
    · obtain ⟨u, htu, hu⟩ := hends t hbusy
      exact ⟨u, htu, by rw [(sound_mux hn hx u).updateGrant_eq, hu, Bool.or_true]⟩
    · refine ⟨t, le_rfl, ?_⟩
      rw [(sound_mux hn hx t).updateGrant_eq]
      simp_all
  obtain ⟨b, hab, hb⟩ := exists_le_highCycles hagain a n
  obtain ⟨t, hat, -, hu, hfirst⟩ := exists_first_of_decisions hp hkeep
    (fun t j hu hj => (hnext t j hu hj).1) i.isLt hab (fun t hat _ => (hw t hat).requests) hb
  -- from cycle `t + 1` on the sink is connected, so the end of its packet transfers its payload
  have hg := (hnext t i hu hfirst).2
  have hsrc : (mux x (t + 1)).srcValid (x (t + 1)) = true := by
    rw [CmdMux.srcValid_of_grant hg]
    exact (hw (t + 1) (by omega)).1
  obtain ⟨u, htu, hlast⟩ := hends (t + 1) (.inl hsrc)
  have hnone := (connected_of_waits hn hx hg (show t + 1 ≤ u + 1 by omega)
    fun v hv _ => hw v (by omega)).2 u htu (Nat.lt_succ_self u)
  rw [hnone] at hlast
  exact Bool.false_ne_true hlast

/-- If every payload is a packet of its own and the source is always ready, no packet stays under
way. -/
lemma exists_lastCycle (hn : 0 < n) (hx : ∀ t, (x t).reset = false)
    (hready : ∀ t, (x t).srcReady = true)
    (hends : ∀ t i, ((x t).sink i).payload.ends = true) (t : ℕ)
    (hbusy : (mux x t).srcValid (x t) = true ∨ (mux x t).packetInProgress = true) :
    ∃ u, t ≤ u ∧ (mux x u).lastCycle (x u) = true := by
  have hlast : ∀ t, (mux x t).lastCycle (x t) = (mux x t).srcValid (x t) := by
    intro t
    rcases (sound_mux hn hx t).grant with hg | ⟨i, hg⟩
    · rw [(CmdMux.idle_of_grant hg).1, (CmdMux.idle_of_grant hg).2.1]
    · rw [CmdMux.lastCycle_of_grant hg, CmdMux.srcValid_of_grant hg, hready, hends, Bool.and_true,
        Bool.and_true]
  have hidle : ∀ t, (mux x t).packetInProgress = false := by
    intro t
    induction t with
    | zero => rfl
    | succ t ih =>
      have hstep : mux x (t + 1) = (mux x t).step (x t) := rfl
      rw [hstep, CmdMux.step, if_neg (by rw [hx t]; exact Bool.false_ne_true)]
      simp only [hlast, ih]
      split_ifs <;> rfl
  refine ⟨t, le_rfl, ?_⟩
  rw [hlast]
  rcases hbusy with hbusy | hbusy
  · exact hbusy
  · rw [hidle] at hbusy
    exact absurd hbusy Bool.false_ne_true

end Run

/-! ### Two processors -/

/-- The first processor shows packets of two payloads, the second one packets of one payload. -/
def packets (t : ℕ) : Inputs 2 where
  reset := false
  sink i := ⟨true, if i = 0 then if t % 3 = 2 then 0b1001 else 0b0110 else 0b1111⟩
  srcReady := true

/-- The packets of the first processor are kept whole, and the packets of the second one get through
between them. -/
theorem forwards_wholePackets_packets :
    transfers packets 7 =
        [(0, 0b0110), (0, 0b1001), (1, 0b1111), (0, 0b0110), (0, 0b1001), (1, 0b1111)] ∧
      Forwarded (transfers packets 7) (output packets 7) :=
  ⟨by decide, (forwards_wholePackets (by decide) (fun _ => rfl) 7).1⟩

/-- Both processors show one command after the other, each in a packet of one payload. -/
def commands (_ : ℕ) : Inputs 2 :=
  { reset := false, sink := fun i => ⟨true, if i = 0 then 0b01 else 0b11⟩, srcReady := true }

end CyclonRtes.Interconnect
