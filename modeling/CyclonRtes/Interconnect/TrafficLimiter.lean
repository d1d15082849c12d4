import CyclonRtes.Interconnect.CommandMux

/-!
# The limiter between a processor and the components

Posted commands are not answered; the others are, and a processor expects the answers in the order
of its commands.  Each component answers in order, but nothing sees to the order between components
except a traffic limiter (`altera_merlin_traffic_limiter.sv`, as it is generated for the data
masters of the multiprocessor system), which keeps a command back while another component still owes
an answer.  It decides by the number of the destination and counts what is unanswered in `COUNTER_W`
bits, here `w`.

Behind it there is a demultiplexer with a way out to each component
(`soc_system_mm_interconnect_0_cmd_demux.sv`).  The responses come back through a multiplexer that
does not arbitrate (`soc_system_mm_interconnect_0_rsp_mux.sv`): it grants every request, and if two
components showed a response in the same cycle, it would mix them up.
-/

namespace CyclonRtes.Interconnect

open Bits

variable {w : ℕ}

/-! ## Commands -/

/-- `data` of a command. -/
abbrev Data := BitVec 96

namespace Data

/-- The bits `PKT_ADDR_H` to `PKT_ADDR_L`. -/
def address (d : Data) : BitVec 18 := d.extractLsb' 36 18

/-- The bits `PKT_DEST_ID_H` to `PKT_DEST_ID_L`. -/
def destId (d : Data) : BitVec 4 := d.extractLsb' 79 4

/-- The bit `PKT_TRANS_POSTED`. -/
def transPosted (d : Data) : Bool := d.getLsbD 55

/-- The assignment of the bits `PKT_DEST_ID_H` to `PKT_DEST_ID_L`. -/
def setDestId (d : Data) (i : BitVec 4) : Data :=
  assignBits d [79, 80, 81, 82] fun j => i.getLsbD (j - 79)

lemma destId_setDestId (d : Data) (i : BitVec 4) : (d.setDestId i).destId = i := by
  apply BitVec.eq_of_getLsbD_eq
  intro j hj
  have hmem : 79 + j ∈ [79, 80, 81, 82] := by simp; omega
  rw [destId, BitVec.getLsbD_extractLsb', decide_eq_true hj, Bool.true_and, setDestId,
    getLsbD_assignBits _ _ _ (by omega), if_pos hmem, Nat.add_sub_cancel_left]

lemma address_setDestId (d : Data) (i : BitVec 4) : (d.setDestId i).address = d.address := by
  apply BitVec.eq_of_getLsbD_eq
  intro j hj
  have hnot : 36 + j ∉ [79, 80, 81, 82] := by simp; omega
  rw [address, address, BitVec.getLsbD_extractLsb', BitVec.getLsbD_extractLsb', setDestId,
    getLsbD_assignBits _ _ _ (by omega), if_neg hnot]

lemma transPosted_setDestId (d : Data) (i : BitVec 4) :
    (d.setDestId i).transPosted = d.transPosted := by
  rw [transPosted, setDestId, getLsbD_assignBits _ _ _ (by decide), if_neg (by decide), transPosted]

end Data

/-! ## The limiter -/

/-- The inputs of the limiter in one clock cycle. -/
structure LimiterInputs where
  reset : Bool
  cmdSinkValid : Bool
  cmdSinkData : Data
  cmdSinkChannel : BitVec 15
  cmdSinkEndofpacket : Bool
  cmdSrcReady : Bool
  rspSinkValid : Bool
  rspSinkEndofpacket : Bool
  rspSrcReady : Bool

/-- The registers of the limiter. -/
structure TrafficLimiter (w : ℕ) where
  lastDestId : BitVec 4
  lastChannel : BitVec 15
  hasPendingResponses : Bool
  pendingResponseCount : BitVec w
  deriving DecidableEq, Repr

namespace LimiterInputs

/-- `nonposted_cmd`. -/
def nonpostedCmd (x : LimiterInputs) : Bool := !x.cmdSinkData.transPosted

/-- `wide_valid`. -/
def wideValid (x : LimiterInputs) : BitVec 15 :=
  (if x.cmdSinkValid then BitVec.allOnes 15 else 0) &&& x.cmdSinkChannel

/-- `rsp_sink_ready`. -/
def rspSinkReady (x : LimiterInputs) : Bool := x.rspSrcReady

/-- `response_accepted`. -/
def responseAccepted (x : LimiterInputs) : Bool :=
  x.rspSinkValid && x.rspSinkReady && x.rspSinkEndofpacket

end LimiterInputs

namespace TrafficLimiter

/-- `stage1_dest_changed`. -/
def destChanged (s : TrafficLimiter w) (x : LimiterInputs) : Bool :=
  s.lastDestId != x.cmdSinkData.destId

/-- `suppress`. -/
def suppress (s : TrafficLimiter w) (x : LimiterInputs) : Bool :=
  x.nonpostedCmd && s.hasPendingResponses && s.destChanged x

/-- `save_dest_id`. -/
def saveDestId (s : TrafficLimiter w) (x : LimiterInputs) : Bool :=
  x.cmdSinkValid && !s.suppress x && x.nonpostedCmd

/-- `internal_valid`. -/
def internalValid (s : TrafficLimiter w) (x : LimiterInputs) : Bool :=
  if s.suppress x then false else x.cmdSinkValid

/-- `cmd_sink_ready`. -/
def cmdSinkReady (s : TrafficLimiter w) (x : LimiterInputs) : Bool :=
  if s.suppress x then false else x.cmdSrcReady

/-- `cmd_src_valid`. -/
def cmdSrcValid (s : TrafficLimiter w) (x : LimiterInputs) : BitVec 15 :=
  if x.nonpostedCmd && s.hasPendingResponses then x.wideValid &&& s.lastChannel else x.wideValid

/-- `nonposted_cmd_accepted`. -/
def nonpostedCmdAccepted (s : TrafficLimiter w) (x : LimiterInputs) : Bool :=
  x.nonpostedCmd && s.internalValid x && (x.cmdSrcReady && x.cmdSinkEndofpacket)

/-- `next_pending_response_count`. -/
def nextPendingResponseCount (s : TrafficLimiter w) (x : LimiterInputs) : BitVec w :=
  if s.nonpostedCmdAccepted x && x.responseAccepted then s.pendingResponseCount
  else if x.responseAccepted then s.pendingResponseCount - 1
  else if s.nonpostedCmdAccepted x then s.pendingResponseCount + 1
  else s.pendingResponseCount

/-- `count_is_1`. -/
def countIs1 (s : TrafficLimiter w) : Bool := s.pendingResponseCount == 1

/-- `count_is_0`. -/
def countIs0 (s : TrafficLimiter w) : Bool := s.pendingResponseCount == 0

/-- The registers after a reset. -/
def reset : TrafficLimiter w := ⟨0, 0, false, 0⟩

/-- One rising edge of `clk`. -/
def step (s : TrafficLimiter w) (x : LimiterInputs) : TrafficLimiter w :=
  if x.reset then reset
  else
    { lastDestId := if s.saveDestId x then x.cmdSinkData.destId else s.lastDestId
      lastChannel := if s.saveDestId x then x.cmdSinkChannel else s.lastChannel
      hasPendingResponses :=
        s.hasPendingResponses &&
            !(s.countIs1 && x.responseAccepted && !s.nonpostedCmdAccepted x) ||
          s.countIs0 && s.nonpostedCmdAccepted x && !x.responseAccepted
      pendingResponseCount := s.nextPendingResponseCount x }

end TrafficLimiter

/-! ## The demultiplexer -/

namespace CmdDemux

/-- `src0_channel`, `src0_data`, `src0_startofpacket` and `src0_endofpacket`, the same for all ways
out. -/
def srcPayload (sinkChannel : BitVec 15) (sinkData : Data)
    (sinkStartofpacket sinkEndofpacket : Bool) : Payload :=
  (sinkChannel >>> 9) ++ sinkData ++ BitVec.ofBool sinkStartofpacket ++
    BitVec.ofBool sinkEndofpacket

/-- `src0_valid`, `src1_valid` and so on. -/
def srcValid (sinkValid sinkChannel : BitVec 15) (i : Fin 9) : Bool :=
  sinkChannel.getLsbD i && sinkValid.getLsbD i

/-- `sink_ready`. -/
def sinkReady (sinkChannel : BitVec 15) (srcReady : Fin 9 → Bool) : Bool :=
  sinkChannel &&& (vector srcReady).setWidth 15 != 0

end CmdDemux

/-! ## The response multiplexer -/

namespace RspMux

variable {n : ℕ}

/-- `grant`, with `ARBITRATION_SCHEME` "no-arb". -/
def grant (request : BitVec n) : BitVec n := request

/-- `src_valid`. -/
def srcValid (sink : Fin n → Sink) : Bool :=
  let valid := vector fun i => (sink i).valid
  grant valid &&& valid != 0

/-- `src_payload`. -/
def srcPayload (sink : Fin n → Sink) : Payload :=
  sumOfProducts (grant (vector fun i => (sink i).valid)) fun i => (sink i).payload

/-- `sink0_ready`, `sink1_ready` and so on. -/
def sinkReady (sink : Fin n → Sink) (srcReady : Bool) (i : Fin n) : Bool :=
  srcReady && (grant (vector fun i => (sink i).valid)).getLsbD i

variable {sink : Fin n → Sink} {i : Fin n}

/-- If no other sink shows a payload, the multiplexer shows what the sink `i` shows. -/
lemma src_of_single (h : ∀ j, (sink j).valid = true → j = i) :
    srcValid sink = (sink i).valid ∧
      ((sink i).valid = true → srcPayload sink = (sink i).payload) := by
  cases hi : (sink i).valid with
  | false =>
    have hzero : (vector fun j => (sink j).valid) = 0 := by
      apply BitVec.eq_of_getLsbD_eq
      intro k hk
      have hj := getLsbD_vector (fun j => (sink j).valid) ⟨k, hk⟩
      rw [BitVec.ofNat_eq_ofNat, BitVec.getLsbD_zero, hj]
      refine Bool.eq_false_iff.mpr fun hvalid => ?_
      rw [h _ hvalid, hi] at hvalid
      exact Bool.false_ne_true hvalid
    refine ⟨?_, fun hfalse => absurd hfalse Bool.false_ne_true⟩
    rw [srcValid, hzero]
    simp
  | true =>
    have hone : (vector fun j => (sink j).valid) = BitVec.twoPow n i := by
      apply BitVec.eq_of_getLsbD_eq
      intro k hk
      have hj := getLsbD_vector (fun j => (sink j).valid) ⟨k, hk⟩
      rw [hj, BitVec.getLsbD_twoPow, decide_eq_true i.isLt, Bool.true_and, Bool.eq_iff_iff,
        decide_eq_true_eq]
      exact ⟨fun hvalid => congrArg Fin.val (h _ hvalid).symm, fun hk => by simp [← hk, hi]⟩
    refine ⟨?_, fun _ => ?_⟩
    · rw [srcValid, hone]
      exact (twoPow_and_ne_zero _ i).trans (by simp)
    · rw [srcPayload, hone]
      exact sumOfProducts_twoPow _ i

end RspMux

end CyclonRtes.Interconnect
