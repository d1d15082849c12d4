import CyclonRtes.Channel.Servers
import CyclonRtes.Interconnect.Router
import CyclonRtes.Interconnect.TrafficLimiter

/-!
# From a processor to the components and back

A command of a processor passes its router, its limiter and its demultiplexer; the responses of the
components come back through the response multiplexer and the limiter.  The components are not
modelled here: each queues the commands that it takes, if they are to be answered, and shows
responses to them, one after the other and whenever it likes.

The limiter decides by destination numbers, but to the demultiplexer it shows a vector that is
computed from channels; and it counts the responses that come out of the multiplexer, not those that
the components hand over.  Here is what one cycle does: the decisions agree, so that a command is
taken by one component exactly when the limiter passes it on (`Path.Sound.takes_eq`); what is
unanswered stays in the hands of a single component, which the limiter has noted
(`Path.Sound.step`); so no two responses meet in the multiplexer (`Path.Sound.exists_shows`), and
the processor receives what the components hand over (`Path.Sound.delivered_eq`).
-/

namespace CyclonRtes.Interconnect

open Bits Channel

variable {w : ℕ}

/-- What the processor and the components do in one cycle: the command that the processor shows, the
ways out that are ready, the responses that the components would show, and whether the processor is
ready for a response. -/
structure PathInputs where
  valid : Bool
  data : Data
  startofpacket : Bool
  endofpacket : Bool
  srcReady : Fin 9 → Bool
  rsp : Fin 9 → Sink
  rspSrcReady : Bool

/-- The limiter, and for each way out the commands that are to be answered there, oldest first. -/
structure Path (w : ℕ) where
  limiter : TrafficLimiter w
  unanswered : Fin 9 → List Data

namespace Path

/-- Right after a reset. -/
def reset : Path w := ⟨TrafficLimiter.reset, fun _ => []⟩

/-- What the component behind the way out `i` shows to the response multiplexer.  It has a response
only if it owes one. -/
def rspSink (s : Path w) (x : PathInputs) (i : Fin 9) : Sink :=
  ⟨(x.rsp i).valid && !(s.unanswered i).isEmpty, (x.rsp i).payload⟩

/-- The component behind the way out `i` hands over what it shows. -/
def gives (s : Path w) (x : PathInputs) (i : Fin 9) : Bool :=
  (s.rspSink x i).valid && RspMux.sinkReady (s.rspSink x) x.rspSrcReady i

/-- The component behind the way out `i` completes a response. -/
def completes (s : Path w) (x : PathInputs) (i : Fin 9) : Bool :=
  s.gives x i && (x.rsp i).payload.endofpacket

/-- The payloads that the components hand over in the cycle. -/
def given (s : Path w) (x : PathInputs) : List (Fin 9 × Payload) :=
  ((List.finRange 9).filter (s.gives x)).map fun i => (i, (x.rsp i).payload)

/-- The payload that the processor receives in the cycle. -/
def delivered (s : Path w) (x : PathInputs) : List Payload :=
  if RspMux.srcValid (s.rspSink x) && x.rspSrcReady then [RspMux.srcPayload (s.rspSink x)] else []

/-- The commands whose responses are completed in the cycle. -/
def answers (s : Path w) (x : PathInputs) : List Data :=
  ((List.finRange 9).filter (s.completes x)).flatMap fun i => (s.unanswered i).head?.toList

/-- The queues of the components after the responses of the cycle. -/
def answered (s : Path w) (x : PathInputs) (i : Fin 9) : List Data :=
  if s.completes x i then (s.unanswered i).tail else s.unanswered i

variable (c : Processor)

/-- The command as it leaves the router. -/
def routed (x : PathInputs) : Data := x.data.setDestId (c.router x.data.address).destId

/-- What the limiter sees. -/
def limiterInputs (s : Path w) (x : PathInputs) : LimiterInputs where
  reset := false
  cmdSinkValid := x.valid
  cmdSinkData := routed c x
  cmdSinkChannel := (c.router x.data.address).srcChannel
  cmdSinkEndofpacket := x.endofpacket
  cmdSrcReady := CmdDemux.sinkReady (c.router x.data.address).srcChannel x.srcReady
  rspSinkValid := RspMux.srcValid (s.rspSink x)
  rspSinkEndofpacket := (RspMux.srcPayload (s.rspSink x)).endofpacket
  rspSrcReady := x.rspSrcReady

/-- The processor hands over what it shows. -/
def transfers (s : Path w) (x : PathInputs) : Bool :=
  x.valid && s.limiter.cmdSinkReady (s.limiterInputs c x)

/-- What is shown on the way out `i`. -/
def srcSink (s : Path w) (x : PathInputs) (i : Fin 9) : Sink where
  valid := CmdDemux.srcValid (s.limiter.cmdSrcValid (s.limiterInputs c x))
    (c.router x.data.address).srcChannel i
  payload := CmdDemux.srcPayload (c.router x.data.address).srcChannel (routed c x) x.startofpacket
    x.endofpacket

/-- The component behind the way out `i` takes what is shown to it. -/
def takes (s : Path w) (x : PathInputs) (i : Fin 9) : Bool :=
  (s.srcSink c x i).valid && x.srcReady i

/-- The component behind the way out `i` owes one more answer. -/
def owes (s : Path w) (x : PathInputs) (i : Fin 9) : Bool :=
  s.takes c x i && x.endofpacket && !x.data.transPosted

/-- The command that the processor completes in the cycle, if it is to be answered. -/
def commands (s : Path w) (x : PathInputs) : List Data :=
  if s.transfers c x && x.endofpacket && !x.data.transPosted then [routed c x] else []

/-- One rising edge of the clock. -/
def step (s : Path w) (x : PathInputs) : Path w where
  limiter := s.limiter.step (s.limiterInputs c x)
  unanswered i := if s.owes c x i then s.answered x i ++ [routed c x] else s.answered x i

end Path

/-! ## One cycle -/

section Cycle

variable {c : Processor} {s : Path w} {x : PathInputs} {pending : List Data} {i : Fin 9}

namespace Path

/-- The way out that the address of the command leads to. -/
def target (c : Processor) (x : PathInputs) : Fin 9 := c.wayOut (component x.data.address)

/-- The commands `pending` are to be answered, all of them by the component that the limiter has
noted; it has their number as far as its counter goes, and they are addressed to it. -/
structure Sound (c : Processor) (s : Path w) (pending : List Data) : Prop where
  busy : OneBusy s.unanswered pending
  home : ∀ i, ∀ d ∈ s.unanswered i, c.wayOut (component d.address) = i
  count : s.limiter.pendingResponseCount = BitVec.ofNat w pending.length
  has : s.limiter.hasPendingResponses = !pending.isEmpty
  last : pending ≠ [] → ∃ k : Component, s.limiter.lastDestId = c.destination k ∧
    s.limiter.lastChannel = BitVec.twoPow 15 (c.wayOut k) ∧ s.unanswered (c.wayOut k) ≠ []

/-- After a reset nothing is to be answered. -/
lemma sound_reset : Sound c (reset : Path w) [] :=
  ⟨oneBusy_empty, fun _ _ hd => absurd hd List.not_mem_nil, rfl, rfl, fun h => absurd rfl h⟩

/-- A component that shows a response owes one. -/
lemma unanswered_of_valid (h : (s.rspSink x i).valid = true) : s.unanswered i ≠ [] := by
  rw [rspSink, Bool.and_eq_true] at h
  simpa using h.2

/-- A component hands over what it shows if the processor is ready. -/
lemma gives_eq : s.gives x i = ((s.rspSink x i).valid && x.rspSrcReady) := by
  rw [gives, RspMux.sinkReady, RspMux.grant, getLsbD_vector]
  cases (s.rspSink x i).valid <;> simp

/-- No other component than the one behind the way out `q` shows a response. -/
def OnlyShows (s : Path w) (x : PathInputs) (q : Fin 9) : Prop :=
  ∀ i, (s.rspSink x i).valid = true → i = q

/-- Only the component that is to answer everything shows a response. -/
lemma Sound.exists_shows (hs : Sound c s pending) (x : PathInputs) :
    ∃ q, s.unanswered q = pending ∧ (∀ i ≠ q, s.unanswered i = []) ∧ s.OnlyShows x q := by
  obtain ⟨q, hq, hothers⟩ := hs.busy
  refine ⟨q, hq, hothers, fun i hi => ?_⟩
  by_contra hne
  exact unanswered_of_valid hi (hothers i hne)

/-! ### Responses -/

section Responses

variable {q : Fin 9}

/-- Only a component that shows a response hands one over. -/
lemma eq_of_gives (h : s.OnlyShows x q) (hi : s.gives x i = true) : i = q := by
  rw [gives_eq, Bool.and_eq_true] at hi
  exact h i hi.1

/-- Only a component that shows a response completes one. -/
lemma eq_of_completes (h : s.OnlyShows x q) (hi : s.completes x i = true) : i = q := by
  rw [completes, Bool.and_eq_true] at hi
  exact eq_of_gives h hi.1

/-- The payload that is handed over is that of the component. -/
lemma given_eq (h : s.OnlyShows x q) :
    s.given x = if s.gives x q then [(q, (x.rsp q).payload)] else [] := by
  rw [given, filter_finRange fun i => eq_of_gives h]
  split_ifs <;> rfl

/-- The command that is answered is the oldest one of the component. -/
lemma answers_eq (h : s.OnlyShows x q) :
    s.answers x = if s.completes x q then (s.unanswered q).head?.toList else [] := by
  rw [answers, filter_finRange fun i => eq_of_completes h]
  split_ifs
  · exact List.flatMap_singleton _ _
  · rfl

/-- The processor receives what the component hands over. -/
lemma delivered_eq (h : s.OnlyShows x q) :
    s.delivered x = if s.gives x q then [(x.rsp q).payload] else [] := by
  obtain ⟨hvalid, hpayload⟩ := RspMux.src_of_single h
  rw [delivered, hvalid, gives_eq]
  split_ifs with hgives
  · rw [Bool.and_eq_true] at hgives
    rw [hpayload hgives.1, rspSink]
  · rfl

/-- The limiter counts a response exactly when the component completes it. -/
lemma responseAccepted_eq (h : s.OnlyShows x q) :
    (s.limiterInputs c x).responseAccepted = s.completes x q := by
  obtain ⟨hvalid, hpayload⟩ := RspMux.src_of_single h
  change (RspMux.srcValid (s.rspSink x) && x.rspSrcReady &&
    (RspMux.srcPayload (s.rspSink x)).endofpacket) = _
  rw [hvalid, completes, gives_eq]
  cases hshow : (s.rspSink x q).valid with
  | false => rfl
  | true => rw [hpayload hshow, rspSink]

end Responses

/-- What is unanswered after the response of the cycle. -/
def remaining (c : Processor) (s : Path w) (x : PathInputs) (pending : List Data) : List Data :=
  if (s.limiterInputs c x).responseAccepted then pending.tail else pending

/-- A response does not add to a queue. -/
lemma answered_eq_nil (h : s.unanswered i = []) : s.answered x i = [] := by
  rw [answered, h]
  split_ifs <;> rfl

/-- A response that the limiter counts is to a command. -/
lemma Sound.ne_nil_of_response (hs : Sound c s pending)
    (h : (s.limiterInputs c x).responseAccepted = true) : pending ≠ [] := by
  obtain ⟨q, rfl, -, hsingle⟩ := hs.exists_shows x
  rw [responseAccepted_eq hsingle, completes, gives_eq, Bool.and_eq_true, Bool.and_eq_true] at h
  exact unanswered_of_valid h.1.1

/-- The response of the cycle is to the oldest command. -/
lemma Sound.answered (hs : Sound c s pending) (x : PathInputs) :
    OneBusy (s.answered x) (remaining c s x pending) ∧
      s.answers x ++ remaining c s x pending = pending := by
  obtain ⟨q, hq, -, hsingle⟩ := hs.exists_shows x
  rw [remaining, answers_eq hsingle, responseAccepted_eq hsingle]
  cases hcompletes : s.completes x q with
  | false =>
    have hsame : s.answered x = s.unanswered := by
      funext i
      rw [Path.answered, if_neg]
      intro hi
      rw [eq_of_completes hsingle hi, hcompletes] at hi
      exact Bool.false_ne_true hi
    rw [hsame]
    exact ⟨hs.busy, rfl⟩
  | true =>
    have hanswer : s.answered x = answer s.unanswered q := by
      funext i
      by_cases hi : i = q
      · rw [hi, Path.answered, if_pos hcompletes, answer, Function.update_self]
      · rw [Path.answered, if_neg fun h => hi (eq_of_completes hsingle h), answer,
          Function.update_of_ne hi]
    have hne : s.unanswered q ≠ [] :=
      hq ▸ hs.ne_nil_of_response (by rw [responseAccepted_eq hsingle, hcompletes])
    obtain ⟨hbusy, hhead⟩ := hs.busy.answer hne
    refine ⟨hanswer ▸ hbusy, ?_⟩
    rw [hhead]
    cases pending <;> rfl

/-- What the processor receives is what the components hand over. -/
lemma Sound.delivered_eq (hs : Sound c s pending) (x : PathInputs) :
    s.delivered x = (s.given x).map Prod.snd := by
  obtain ⟨q, -, -, hsingle⟩ := hs.exists_shows x
  rw [Path.delivered_eq hsingle, given_eq hsingle]
  split_ifs <;> rfl

/-- No two payloads are handed over in one cycle. -/
lemma Sound.isChain_given (hs : Sound c s pending) (x : PathInputs)
    (R : Fin 9 × Payload → Fin 9 × Payload → Prop) : (s.given x).IsChain R := by
  obtain ⟨q, -, -, hsingle⟩ := hs.exists_shows x
  rw [given_eq hsingle]
  split_ifs
  · exact List.isChain_singleton _
  · exact List.isChain_nil

/-- A response is completed by the component that its command is addressed to. -/
lemma Sound.matched (hs : Sound c s pending) (x : PathInputs) :
    ((s.given x).filter fun a => a.2.endofpacket).map Prod.fst =
      (s.answers x).map fun d => c.wayOut (component d.address) := by
  obtain ⟨q, -, -, hsingle⟩ := hs.exists_shows x
  rw [given_eq hsingle, answers_eq hsingle, completes]
  cases hgives : s.gives x q with
  | false => rfl
  | true =>
    cases hends : (x.rsp q).payload.endofpacket with
    | false => simp [hends]
    | true =>
      rw [gives_eq, Bool.and_eq_true] at hgives
      obtain ⟨d, l, hd⟩ := List.exists_cons_of_ne_nil (unanswered_of_valid hgives.1)
      have hhome := hs.home q d (hd ▸ List.mem_cons_self)
      simp [hends, hd, hhome]

/-- A component that has not completed its response still owes it. -/
lemma step_unanswered_ne_nil (h : s.unanswered i ≠ []) (hi : s.completes x i = false) :
    (s.step c x).unanswered i ≠ [] := by
  have hanswered : s.answered x i = s.unanswered i := by
    rw [Path.answered, hi, if_neg Bool.false_ne_true]
  simp only [Path.step, hanswered]
  split_ifs
  · exact List.append_ne_nil_of_left_ne_nil h _
  · exact h

/-- The component of a response that is under way owes it. -/
def Open (s : Path w) (given : List (Fin 9 × Payload)) : Prop :=
  ∀ a ∈ given.getLast?, a.2.endofpacket = false → s.unanswered a.1 ≠ []

/-- The next payload belongs to the response that is under way, if there is one. -/
lemma Sound.open_step {given : List (Fin 9 × Payload)} (hs : Sound c s pending)
    (h : s.Open given) (x : PathInputs) :
    (s.step c x).Open (given ++ s.given x) ∧
      ∀ a ∈ given.getLast?, ∀ b ∈ (s.given x).head?, a.2.endofpacket = false → b.1 = a.1 := by
  obtain ⟨q, -, hothers, hsingle⟩ := hs.exists_shows x
  rw [given_eq hsingle]
  cases hgives : s.gives x q with
  | false =>
    refine ⟨fun a ha hends => ?_, fun a _ b hb => by simp at hb⟩
    have hincomplete : s.completes x a.1 = false := by
      refine Bool.eq_false_iff.mpr fun hcompletes => ?_
      rw [eq_of_completes hsingle hcompletes, completes, hgives] at hcompletes
      exact Bool.false_ne_true hcompletes
    exact step_unanswered_ne_nil (h a (by simpa using ha) hends) hincomplete
  | true =>
    refine ⟨fun a ha hends => ?_, fun a ha b hb hends => ?_⟩
    · obtain rfl : (q, (x.rsp q).payload) = a := by simpa using ha
      rw [gives_eq, Bool.and_eq_true] at hgives
      exact step_unanswered_ne_nil (unanswered_of_valid hgives.1)
        (by rw [completes, hends, Bool.and_false])
    · obtain rfl : (q, (x.rsp q).payload) = b := by simpa using hb
      by_contra hne
      exact h a ha hends (hothers a.1 (Ne.symm hne))

/-! ### Commands -/

/-- A command is not answered if it is posted. -/
lemma nonpostedCmd_eq : (s.limiterInputs c x).nonpostedCmd = !x.data.transPosted := by
  rw [LimiterInputs.nonpostedCmd, limiterInputs, routed, Data.transPosted_setDestId]

/-- What the limiter does is settled by what is unanswered: nothing at all, or commands of one
component, which the limiter has noted. -/
lemma Sound.cases (hs : Sound c s pending) :
    (s.limiter.hasPendingResponses = false ∧ pending = [] ∧ ∀ i, s.unanswered i = []) ∨
    (s.limiter.hasPendingResponses = true ∧ ∃ k, s.limiter.lastDestId = c.destination k ∧
      s.limiter.lastChannel = BitVec.twoPow 15 (c.wayOut k) ∧ s.unanswered (c.wayOut k) ≠ [] ∧
      ∀ i ≠ c.wayOut k, s.unanswered i = []) := by
  obtain ⟨hbusy, -, -, hhas, hlast⟩ := hs
  by_cases hp : pending = []
  · subst hp
    exact .inl ⟨hhas, rfl, hbusy.queue_eq_nil⟩
  · obtain ⟨k, hdest, hchannel, hk⟩ := hlast hp
    exact .inr ⟨by simp [hhas, hp], k, hdest, hchannel, hk, (hbusy.queue_eq hk).2⟩

/-- A command is kept back if it is to be answered while another component owes an answer. -/
lemma Sound.suppress_iff (hs : Sound c s pending) :
    s.limiter.suppress (s.limiterInputs c x) = true ↔
      x.data.transPosted = false ∧ ∃ i ≠ target c x, s.unanswered i ≠ [] := by
  have hdest : (s.limiterInputs c x).cmdSinkData.destId =
      c.destination (component x.data.address) :=
    (Data.destId_setDestId _ _).trans c.destId_eq
  rw [TrafficLimiter.suppress, nonpostedCmd_eq, TrafficLimiter.destChanged, hdest]
  rcases hs.cases with ⟨hhas, -, hnil⟩ | ⟨hhas, k, hlast, -, hk, hothers⟩
  · simp [hhas, hnil]
  · rw [hhas, hlast, Bool.and_true, Bool.and_eq_true, Bool.not_eq_true', bne_iff_ne, ne_eq,
      c.destination_inj, ← c.wayOut_inj]
    refine and_congr_right fun _ => ⟨fun hne => ⟨c.wayOut k, hne, hk⟩, ?_⟩
    rintro ⟨i, hi, hne⟩ heq
    exact hne (hothers i fun h => hi (h.trans heq))

/-- The demultiplexer is ready if the way out of the command is. -/
lemma sinkReady_eq : (s.limiterInputs c x).cmdSrcReady = x.srcReady (target c x) := by
  have hlt : (target c x).val < 15 := lt_trans (Fin.isLt _) (by decide)
  have hbit := twoPow_and_ne_zero ((vector x.srcReady).setWidth 15) ⟨_, hlt⟩
  rw [BitVec.getLsbD_setWidth, decide_eq_true hlt, Bool.true_and, getLsbD_vector] at hbit
  rw [← hbit, limiterInputs, CmdDemux.sinkReady, c.srcChannel_eq]
  rfl

/-- On the way out of the command, the limiter shows what it has not kept back. -/
lemma Sound.getLsbD_cmdSrcValid (hs : Sound c s pending) :
    (s.limiter.cmdSrcValid (s.limiterInputs c x)).getLsbD (target c x) =
      (x.valid && !s.limiter.suppress (s.limiterInputs c x)) := by
  have hlt : (target c x).val < 15 := lt_trans (Fin.isLt _) (by decide)
  have hwide : (s.limiterInputs c x).wideValid.getLsbD (target c x) = x.valid := by
    rw [LimiterInputs.wideValid, limiterInputs, BitVec.getLsbD_and, c.getLsbD_srcChannel,
      decide_eq_true (show target c x = c.wayOut _ from rfl), Bool.and_true]
    cases x.valid with
    | false => simp
    | true => rw [if_pos rfl, BitVec.getLsbD_allOnes, decide_eq_true hlt]
  have hsuppress := hs.suppress_iff (x := x)
  rw [TrafficLimiter.cmdSrcValid, nonpostedCmd_eq]
  cases hposted : x.data.transPosted with
  | true =>
    have hno : s.limiter.suppress (s.limiterInputs c x) = false := by
      rw [TrafficLimiter.suppress, nonpostedCmd_eq, hposted]
      rfl
    simp [hno, hwide]
  | false =>
    rcases hs.cases with ⟨hhas, -, hnil⟩ | ⟨hhas, k, -, hlast, hk, hothers⟩
    · have hno : s.limiter.suppress (s.limiterInputs c x) = false := by
        rw [TrafficLimiter.suppress, hhas, Bool.and_false, Bool.false_and]
      simp [hno, hhas, hwide]
    · -- the vector shows the command on the noted way only
      have hk15 : (c.wayOut k).val < 15 := lt_trans (Fin.isLt _) (by decide)
      rw [hhas, Bool.not_false, Bool.and_true, if_pos rfl, BitVec.getLsbD_and, hwide, hlast,
        BitVec.getLsbD_twoPow, decide_eq_true hk15, Bool.true_and]
      congr 1
      by_cases heq : c.wayOut k = target c x
      · have hno : s.limiter.suppress (s.limiterInputs c x) = false := by
          refine Bool.eq_false_iff.mpr fun h => ?_
          obtain ⟨-, i, hi, hne⟩ := hsuppress.mp h
          exact hne (hothers i fun h => hi (h.trans heq))
        rw [hno, heq, decide_eq_true rfl, Bool.not_false]
      · have hyes := hsuppress.mpr ⟨hposted, c.wayOut k, heq, hk⟩
        rw [hyes, decide_eq_false (fun h => heq (Fin.ext h)), Bool.not_true]

/-- A command that is not kept back is shown to the component of its address. -/
lemma Sound.srcSink_valid (hs : Sound c s pending) : (s.srcSink c x i).valid =
    (x.valid && !s.limiter.suppress (s.limiterInputs c x) && decide (i = target c x)) := by
  rw [srcSink, CmdDemux.srcValid, c.getLsbD_srcChannel]
  by_cases hi : i = target c x
  · subst hi
    rw [hs.getLsbD_cmdSrcValid, decide_eq_true rfl,
      decide_eq_true (show target c x = c.wayOut _ from rfl), Bool.true_and, Bool.and_true]
  · rw [decide_eq_false (show i ≠ c.wayOut _ from hi), decide_eq_false hi, Bool.false_and,
      Bool.and_false]

/-- A command is taken by the component of its address, when the processor hands it over. -/
lemma Sound.takes_eq (hs : Sound c s pending) :
    s.takes c x i = (s.transfers c x && decide (i = target c x)) := by
  rw [takes, hs.srcSink_valid, transfers, TrafficLimiter.cmdSinkReady, sinkReady_eq]
  by_cases hi : i = target c x
  · rw [hi]
    cases s.limiter.suppress (s.limiterInputs c x) <;> simp
  · simp [hi]

/-- The limiter counts a command exactly when the processor completes it. -/
lemma nonpostedCmdAccepted_eq : s.limiter.nonpostedCmdAccepted (s.limiterInputs c x) =
    (s.transfers c x && x.endofpacket && !x.data.transPosted) := by
  rw [TrafficLimiter.nonpostedCmdAccepted, nonpostedCmd_eq, TrafficLimiter.internalValid, transfers,
    TrafficLimiter.cmdSinkReady]
  change (_ && (if _ then false else x.valid) && (_ && x.endofpacket)) = _
  cases s.limiter.suppress (s.limiterInputs c x) <;> cases x.valid <;> cases x.endofpacket <;>
    cases x.data.transPosted <;> simp

/-- A command that the processor hands over is not kept back. -/
lemma not_suppress_of_transfers (h : s.transfers c x = true) :
    x.valid = true ∧ s.limiter.suppress (s.limiterInputs c x) = false := by
  rw [transfers, TrafficLimiter.cmdSinkReady, Bool.and_eq_true] at h
  refine ⟨h.1, ?_⟩
  by_contra hno
  simp [Bool.eq_true_of_not_eq_false hno] at h

/-- A command that is to be answered and not kept back finds the other components idle. -/
lemma Sound.idle (hs : Sound c s pending) (hposted : x.data.transPosted = false)
    (h : s.limiter.suppress (s.limiterInputs c x) = false) :
    ∀ i ≠ target c x, s.unanswered i = [] := by
  intro i hi
  by_contra hne
  rw [hs.suppress_iff.mpr ⟨hposted, i, hi, hne⟩] at h
  exact Bool.false_ne_true h.symm

/-- The queues after the cycle. -/
lemma Sound.busy_step (hs : Sound c s pending) :
    OneBusy (s.step c x).unanswered (remaining c s x pending ++ s.commands c x) := by
  obtain ⟨hbusy, -⟩ := hs.answered x
  by_cases hcmd : (s.transfers c x && x.endofpacket && !x.data.transPosted) = true
  · have htransfer := hcmd
    rw [Bool.and_eq_true, Bool.and_eq_true, Bool.not_eq_true'] at htransfer
    obtain ⟨⟨htransfer, heop⟩, hposted⟩ := htransfer
    have hidle := hs.idle hposted (not_suppress_of_transfers htransfer).2
    have hstep : (s.step c x).unanswered = ask (s.answered x) (target c x) (routed c x) := by
      funext i
      simp only [step, owes, hs.takes_eq, htransfer, heop, hposted]
      by_cases hi : i = target c x
      · subst hi
        simp [ask]
      · simp [ask, hi]
    rw [hstep, commands, if_pos hcmd]
    exact hbusy.ask fun i hi => answered_eq_nil (hidle i hi)
  · have hstep : (s.step c x).unanswered = s.answered x := by
      funext i
      simp only [step, owes, hs.takes_eq]
      rw [if_neg]
      simp only [Bool.and_eq_true] at hcmd ⊢
      tauto
    rw [hstep, commands, if_neg hcmd, List.append_nil]
    exact hbusy

/-- The commands after the cycle are in the hands of the components that they are addressed to. -/
lemma Sound.home_step (hs : Sound c s pending) (i : Fin 9) :
    ∀ d ∈ (s.step c x).unanswered i, c.wayOut (component d.address) = i := by
  have hanswered : ∀ d ∈ s.answered x i, c.wayOut (component d.address) = i := by
    intro d hd
    rw [Path.answered] at hd
    split_ifs at hd
    · exact hs.home i d (List.mem_of_mem_tail hd)
    · exact hs.home i d hd
  intro d hd
  simp only [Path.step] at hd
  split_ifs at hd with howes
  · rcases List.mem_append.mp hd with hd | hd
    · exact hanswered d hd
    · rw [owes, hs.takes_eq, Bool.and_eq_true, Bool.and_eq_true, Bool.and_eq_true,
        decide_eq_true_eq] at howes
      rw [List.mem_singleton.mp hd, routed, Data.address_setDestId, howes.1.1.2, target]
  · exact hanswered d hd

/-- Up to the range of the counter and one more, it shows one for one command only. -/
lemma ofNat_eq_one_iff {n : ℕ} (hpos : 0 < n) (hle : n ≤ 2 ^ w) : BitVec.ofNat w n = 1 ↔ n = 1 := by
  refine ⟨fun h => ?_, fun h => by rw [h]; rfl⟩
  have hmod : n % 2 ^ w = 1 % 2 ^ w := by simpa using congrArg BitVec.toNat h
  rcases Nat.lt_or_ge 1 (2 ^ w) with hw | hw
  · rcases Nat.lt_or_eq_of_le hle with hlt | rfl
    · rwa [Nat.mod_eq_of_lt hlt, Nat.mod_eq_of_lt hw] at hmod
    · rw [Nat.mod_self, Nat.mod_eq_of_lt hw] at hmod
      exact absurd hmod (by decide)
  · omega

/-- The counter follows the number of unanswered commands. -/
lemma Sound.count_step (hs : Sound c s pending) :
    (s.step c x).limiter.pendingResponseCount =
      BitVec.ofNat w (remaining c s x pending ++ s.commands c x).length := by
  change s.limiter.nextPendingResponseCount (s.limiterInputs c x) = _
  rw [TrafficLimiter.nextPendingResponseCount, nonpostedCmdAccepted_eq, hs.count, remaining,
    commands, List.length_append]
  cases hr : (s.limiterInputs c x).responseAccepted with
  | false =>
    cases s.transfers c x && x.endofpacket && !x.data.transPosted with
    | false => rfl
    | true => exact (BitVec.ofNat_add ..).symm
  | true =>
    obtain ⟨d, pending, rfl⟩ := List.exists_cons_of_ne_nil (hs.ne_nil_of_response hr)
    cases s.transfers c x && x.endofpacket && !x.data.transPosted with
    | false =>
      change BitVec.ofNat w (pending.length + 1) - BitVec.ofNat w 1 = BitVec.ofNat w pending.length
      rw [BitVec.ofNat_add, BitVec.add_sub_cancel]
    | true => rfl

/-- The flag tells whether a command is unanswered. -/
lemma Sound.has_step (hs : Sound c s pending) (hle : pending.length ≤ 2 ^ w) :
    (s.step c x).limiter.hasPendingResponses =
      !(remaining c s x pending ++ s.commands c x).isEmpty := by
  have hstep : (s.step c x).limiter.hasPendingResponses =
      (s.limiter.hasPendingResponses && !(s.limiter.countIs1 &&
        (s.limiterInputs c x).responseAccepted &&
        !s.limiter.nonpostedCmdAccepted (s.limiterInputs c x)) ||
      s.limiter.countIs0 && s.limiter.nonpostedCmdAccepted (s.limiterInputs c x) &&
        !(s.limiterInputs c x).responseAccepted) := rfl
  rw [hstep, nonpostedCmdAccepted_eq, hs.has, TrafficLimiter.countIs1, TrafficLimiter.countIs0,
    hs.count, remaining, commands]
  cases hr : (s.limiterInputs c x).responseAccepted with
  | false =>
    cases s.transfers c x && x.endofpacket && !x.data.transPosted with
    | false => simp
    | true => cases pending <;> simp
  | true =>
    obtain ⟨d, pending, rfl⟩ := List.exists_cons_of_ne_nil (hs.ne_nil_of_response hr)
    cases s.transfers c x && x.endofpacket && !x.data.transPosted with
    | true => simp
    | false =>
      -- a response alone clears the flag if the counter shows one
      have hone := ofNat_eq_one_iff (w := w) (Nat.succ_pos pending.length) hle
      rw [Nat.succ_inj, List.length_eq_zero_iff] at hone
      cases pending with
      | nil => simp
      | cons e pending => simpa using hone

/-- A queue without commands stays so, unless the component takes another one. -/
lemma unanswered_step_eq_nil (h : s.unanswered i = []) (ho : s.owes c x i = false) :
    (s.step c x).unanswered i = [] := by
  simp only [step, ho, Bool.false_eq_true, if_false]
  exact answered_eq_nil h

/-- The limiter notes the destination of a command that it passes on, if it is to be answered. -/
lemma saveDestId_eq : s.limiter.saveDestId (s.limiterInputs c x) =
    (x.valid && !s.limiter.suppress (s.limiterInputs c x) && !x.data.transPosted) := by
  rw [TrafficLimiter.saveDestId, nonpostedCmd_eq]
  rfl

/-- The limiter has noted the component that is to answer. -/
lemma Sound.last_step (hs : Sound c s pending)
    (hne : remaining c s x pending ++ s.commands c x ≠ []) :
    ∃ k : Component, (s.step c x).limiter.lastDestId = c.destination k ∧
      (s.step c x).limiter.lastChannel = BitVec.twoPow 15 (c.wayOut k) ∧
      (s.step c x).unanswered (c.wayOut k) ≠ [] := by
  suffices h : ∃ k : Component, (s.step c x).limiter.lastDestId = c.destination k ∧
      (s.step c x).limiter.lastChannel = BitVec.twoPow 15 (c.wayOut k) ∧
      ∀ i ≠ c.wayOut k, (s.step c x).unanswered i = [] by
    obtain ⟨k, hdest, hchannel, hothers⟩ := h
    exact ⟨k, hdest, hchannel, by rwa [hs.busy_step.queue_eq_of_others hothers]⟩
  have hdest : (s.step c x).limiter.lastDestId =
      if s.limiter.saveDestId (s.limiterInputs c x) then (routed c x).destId
      else s.limiter.lastDestId := rfl
  have hchannel : (s.step c x).limiter.lastChannel =
      if s.limiter.saveDestId (s.limiterInputs c x) then (c.router x.data.address).srcChannel
      else s.limiter.lastChannel := rfl
  rw [hdest, hchannel]
  cases hsave : s.limiter.saveDestId (s.limiterInputs c x) with
  | true =>
    have hpass := hsave
    rw [saveDestId_eq, Bool.and_eq_true, Bool.and_eq_true, Bool.not_eq_true', Bool.not_eq_true']
      at hpass
    refine ⟨component x.data.address, (Data.destId_setDestId _ _).trans c.destId_eq,
      c.srcChannel_eq, fun i hi => unanswered_step_eq_nil (hs.idle hpass.2 hpass.1.2 i hi) ?_⟩
    rw [owes, hs.takes_eq, decide_eq_false (show i ≠ target c x from hi)]
    simp
  | false =>
    -- no command is completed, so one was unanswered before
    have hno : (s.transfers c x && !x.data.transPosted) = false := by
      refine Bool.eq_false_iff.mpr fun h => ?_
      rw [Bool.and_eq_true] at h
      obtain ⟨hvalid, hpass⟩ := not_suppress_of_transfers h.1
      rw [saveDestId_eq, hvalid, hpass, h.2] at hsave
      exact absurd hsave (by decide)
    have hcmd : s.commands c x = [] := by
      rw [commands, Bool.and_assoc, Bool.and_comm x.endofpacket, ← Bool.and_assoc, hno]
      rfl
    have howes : ∀ i, s.owes c x i = false := by
      intro i
      rw [owes, hs.takes_eq]
      simp only [Bool.and_eq_false_iff] at hno ⊢
      tauto
    have hpending : pending ≠ [] := by
      rintro rfl
      exact hne (by rw [hcmd, remaining]; split_ifs <;> rfl)
    obtain ⟨k, hlast, hlastChannel, hk⟩ := hs.last hpending
    exact ⟨k, hlast, hlastChannel, fun i hi =>
      unanswered_step_eq_nil ((hs.busy.queue_eq hk).2 i hi) (howes i)⟩

/-- The step lemma of the invariant. -/
lemma Sound.step (hs : Sound c s pending) (hle : pending.length ≤ 2 ^ w) :
    Sound c (s.step c x) (remaining c s x pending ++ s.commands c x) :=
  ⟨hs.busy_step, hs.home_step, hs.count_step, hs.has_step hle, hs.last_step⟩

end Path

end Cycle

end CyclonRtes.Interconnect
