import CyclonRtes.Interconnect.MasterPath

/-!
# Commands and answers of a processor

Runs of the way from a processor to the components.  A processor is promised that its limiter has
room for `MAX_OUTSTANDING_RESPONSES` unanswered commands, one for the data masters; the counter of
the limiter has a bit for that, and works for two.  As long as the processor keeps to it, each of
its commands is taken by the component of its address, once (`takes_iff`), the answers come in the
order of the commands (`answers_inOrder`), their payloads reach the processor in whole packets
(`responds_inOrder`), and no command is kept back for ever (`exists_transfers`).
-/

namespace CyclonRtes.Interconnect

open Synchronous

variable {w : ℕ}

/-- The limiter and the components in cycle `t` after a reset. -/
def path (w : ℕ) (c : Processor) (x : ℕ → PathInputs) (t : ℕ) : Path w :=
  run (Path.step c) Path.reset x t

/-- The commands to be answered that the processor has completed before cycle `t`, oldest first. -/
def completed (w : ℕ) (c : Processor) (x : ℕ → PathInputs) (t : ℕ) : List Data :=
  log (Path.commands c) (Path.step c) (Path.reset : Path w) x t

/-- The commands whose answers the processor has received before cycle `t`, oldest first. -/
def received (w : ℕ) (c : Processor) (x : ℕ → PathInputs) (t : ℕ) : List Data :=
  log Path.answers (Path.step c) (Path.reset : Path w) x t

/-- The payloads that the components have handed over before cycle `t`, oldest first. -/
def given (w : ℕ) (c : Processor) (x : ℕ → PathInputs) (t : ℕ) : List (Fin 9 × Payload) :=
  log Path.given (Path.step c) (Path.reset : Path w) x t

/-- The payloads that the processor has taken before cycle `t`, oldest first. -/
def delivered (w : ℕ) (c : Processor) (x : ℕ → PathInputs) (t : ℕ) : List Payload :=
  log Path.delivered (Path.step c) (Path.reset : Path w) x t

/-- What the components hand over reaches the processor in the same order, once and unchanged; no
component intervenes in the response of another one; and each response is completed by the component
that its command is addressed to. -/
structure Responds (c : Processor) (given : List (Fin 9 × Payload)) (delivered : List Payload)
    (received : List Data) : Prop where
  inOrder : delivered = given.map Prod.snd
  whole : given.IsChain fun a b => a.2.endofpacket = false → b.1 = a.1
  matched : (given.filter fun a => a.2.endofpacket).map Prod.fst =
    received.map fun d => c.wayOut (component d.address)

/-- The processor waits for `2 ^ w` answers at most. -/
def Bounded (w : ℕ) (c : Processor) (x : ℕ → PathInputs) : Prop :=
  ∀ t, (completed w c x t).length ≤ (received w c x t).length + 2 ^ w

section Run

variable {c : Processor} {x : ℕ → PathInputs} {t : ℕ} {i : Fin 9}

/-- The processor's side of one cycle. -/
lemma completed_succ (x : ℕ → PathInputs) (t : ℕ) :
    completed w c x (t + 1) = completed w c x t ++ (path w c x t).commands c (x t) := rfl

/-- The components' side of one cycle. -/
lemma received_succ (x : ℕ → PathInputs) (t : ℕ) :
    received w c x (t + 1) = received w c x t ++ (path w c x t).answers (x t) := rfl

/-- The invariant holds in every cycle, and what is unanswered has been commanded last. -/
lemma sound_path (hm : Bounded w c x) (t : ℕ) : ∃ pending, (path w c x t).Sound c pending ∧
    completed w c x t = received w c x t ++ pending := by
  induction t with
  | zero => exact ⟨[], Path.sound_reset, rfl⟩
  | succ t ih =>
    obtain ⟨pending, hs, hbalance⟩ := ih
    have hle : pending.length ≤ 2 ^ w := by
      have hbound := hm t
      rw [hbalance, List.length_append] at hbound
      omega
    refine ⟨_, hs.step hle (x := x t), ?_⟩
    have hresponse := (hs.answered (x t)).2
    calc completed w c x (t + 1)
        = received w c x t ++ pending ++ (path w c x t).commands c (x t) := by
          rw [completed_succ, hbalance]
      _ = received w c x (t + 1) ++ (Path.remaining c (path w c x t) (x t) pending ++
            (path w c x t).commands c (x t)) := by
          rw [received_succ, List.append_assoc, List.append_assoc,
            ← List.append_assoc ((path w c x t).answers (x t)), hresponse]

/-- As long as nothing is handed over, nothing is completed. -/
lemma completed_eq {a b : ℕ} (hab : a ≤ b)
    (h : ∀ t, a ≤ t → t < b → (path w c x t).transfers c (x t) = false) :
    completed w c x b = completed w c x a := by
  induction b, hab using Nat.le_induction with
  | base => rfl
  | succ b hab ih =>
    rw [completed_succ, Path.commands, h b hab (Nat.lt_succ_self b),
      ih fun t hat htb => h t hat (Nat.lt_succ_of_lt htb)]
    exact List.append_nil _

/-- A processor that completes no more than `2 ^ w` commands at all need not wait. -/
lemma bounded_of_completed {a : ℕ} (h : ∀ t, a ≤ t → completed w c x t = completed w c x a)
    (hle : (completed w c x a).length ≤ 2 ^ w) : Bounded w c x := by
  intro t
  refine le_trans ?_ (Nat.le_add_left _ _)
  rcases Nat.le_total t a with ht | ht
  · exact (log_mono ht).length_le.trans hle
  · rw [h t ht]
    exact hle

/-- A command to read at the address; it is not posted. -/
def readCommand (a : BitVec 18) : Data := a.setWidth 96 <<< 36

/-- The first processor reads the mutex in cycle 0 and shows a read of the interrupt counter from
cycle 1 on.  The mutex answers in cycle 2, the interrupt counter in cycle 4, each with a single
payload. -/
def twoReads (t : ℕ) : PathInputs where
  valid := t ≤ 3
  data := readCommand (if t = 0 then 0x210a0 else 0x21040)
  startofpacket := true
  endofpacket := true
  srcReady _ := true
  rsp _ := ⟨2 ≤ t, 1⟩
  rspSrcReady := true

/-- After cycle 3 nothing is completed any more. -/
lemma completed_twoReads (ht : 4 ≤ t) :
    completed 1 .cpu0 twoReads t = completed 1 .cpu0 twoReads 4 :=
  completed_eq ht fun u hu _ => by
    rw [Path.transfers, twoReads, decide_eq_false (by omega), Bool.false_and]

/-- The processor waits for no more answers than it may. -/
lemma twoReads_bounded : Bounded 1 .cpu0 twoReads :=
  bounded_of_completed (fun _ => completed_twoReads) (by decide)

/-- The answers come in the order of the commands, whichever components they come from: what is
unanswered are the last commands, and they are all in the hands of one component. -/
theorem answers_inOrder (hm : Bounded w c x) (t : ℕ) : ∃ i,
    completed w c x t = received w c x t ++ (path w c x t).unanswered i ∧
      ∀ j ≠ i, (path w c x t).unanswered j = [] := by
  obtain ⟨pending, hs, hbalance⟩ := sound_path hm t
  obtain ⟨i, hi, hothers⟩ := hs.busy
  exact ⟨i, by rw [hbalance, hi], hothers⟩

/-- After cycle 3 the first read is answered and the second one is in the hands of a component. -/
theorem answers_inOrder_twoReads : (received 1 .cpu0 twoReads 4).length = 1 ∧
    ∃ i, completed 1 .cpu0 twoReads 4 =
        received 1 .cpu0 twoReads 4 ++ (path 1 .cpu0 twoReads 4).unanswered i ∧
      ∀ j ≠ i, (path 1 .cpu0 twoReads 4).unanswered j = [] :=
  ⟨by decide, answers_inOrder twoReads_bounded 4⟩

/-- The response multiplexer, which does not arbitrate, never has to: no two components show a
response in the same cycle, and everything that they hand over reaches the processor, in whole
packets, each from the component that the processor has addressed. -/
theorem responds_inOrder (hm : Bounded w c x) (t : ℕ) :
    Responds c (given w c x t) (delivered w c x t) (received w c x t) ∧
      ∀ i j, ((path w c x t).rspSink (x t) i).valid = true →
        ((path w c x t).rspSink (x t) j).valid = true → i = j := by
  constructor
  · suffices h : Responds c (given w c x t) (delivered w c x t) (received w c x t) ∧
      (path w c x t).Open (given w c x t) from h.1
    induction t with
    | zero => exact ⟨⟨rfl, List.isChain_nil, rfl⟩, fun a ha => by simp [given] at ha⟩
    | succ t ih =>
      obtain ⟨⟨horder, hwhole, hmatched⟩, hopen⟩ := ih
      obtain ⟨pending, hs, -⟩ := sound_path hm t
      obtain ⟨hopen', hnext⟩ := hs.open_step hopen (x t)
      have hwhole' := List.isChain_append.mpr ⟨hwhole, hs.isChain_given (x t) _, hnext⟩
      have hgiven : given w c x (t + 1) = given w c x t ++ (path w c x t).given (x t) := rfl
      have hdelivered :
          delivered w c x (t + 1) = delivered w c x t ++ (path w c x t).delivered (x t) := rfl
      rw [hgiven, hdelivered, received_succ]
      refine ⟨⟨?_, hwhole', ?_⟩, hopen'⟩
      · rw [horder, hs.delivered_eq, List.map_append]
      · rw [List.filter_append, List.map_append, hmatched, hs.matched, List.map_append]
  · obtain ⟨pending, hs, -⟩ := sound_path hm t
    obtain ⟨q, -, -, hsingle⟩ := hs.exists_shows (x t)
    exact fun i j hi hj => (hsingle i hi).trans (hsingle j hj).symm

/-- Before cycle 5 both responses have reached the processor. -/
theorem responds_inOrder_twoReads : (delivered 1 .cpu0 twoReads 5).length = 2 ∧
    Responds .cpu0 (given 1 .cpu0 twoReads 5) (delivered 1 .cpu0 twoReads 5)
      (received 1 .cpu0 twoReads 5) :=
  ⟨by decide, (responds_inOrder twoReads_bounded 5).1⟩

/-! ### Waiting -/

/-- If nothing more is handed over, at some time everything is answered. -/
lemma exists_received (hm : Bounded w c x) {a : ℕ}
    (hcompleted : ∀ t, completed w c x (a + t) = completed w c x a)
    (hle : ∀ t, (received w c x (a + t)).length ≤ (completed w c x a).length)
    (hanswer : ∀ t i, (path w c x t).unanswered i ≠ [] →
      ∃ u, t ≤ u ∧ (path w c x u).answers (x u) ≠ []) :
    ∃ t, (received w c x (a + t)).length = (completed w c x a).length := by
  by_contra hno
  have hno' := not_exists.mp hno
  refine hno (exists_of_measure (S := fun t => (path w c x (a + t)).answers (x (a + t)) = [])
    (fun t => (completed w c x a).length - (received w c x (a + t)).length) (fun t ht => ?_)
    fun t => ?_)
  · have hsucc : received w c x (a + (t + 1)) = _ := received_succ x (a + t)
    have hlt := lt_of_le_of_ne (hle t) ht
    by_cases hnil : (path w c x (a + t)).answers (x (a + t)) = []
    · exact .inr ⟨hnil, by rw [hsucc, hnil, List.append_nil]⟩
    · have hpos := List.length_pos_iff.mpr hnil
      left
      rw [hsucc, List.length_append]
      omega
  · obtain ⟨pending, hs, hbalance⟩ := sound_path hm (a + t)
    obtain ⟨i, rfl, -⟩ := hs.busy
    have hi : (path w c x (a + t)).unanswered i ≠ [] := by
      intro hnil
      rw [hcompleted, hnil, List.append_nil] at hbalance
      exact hno' t (by rw [hbalance])
    obtain ⟨u, hu, hanswered⟩ := hanswer (a + t) i hi
    obtain ⟨v, rfl⟩ := Nat.exists_eq_add_of_le (show a ≤ u by omega)
    exact ⟨v, by omega, hanswered⟩

/-- If everything is answered and nothing more is completed, nothing is unanswered. -/
lemma unanswered_eq_nil (hm : Bounded w c x) {a : ℕ} (hat : a ≤ t)
    (hcompleted : completed w c x t = completed w c x a)
    (hreceived : (received w c x a).length = (completed w c x a).length) (i : Fin 9) :
    (path w c x t).unanswered i = [] := by
  obtain ⟨pending, hs, hbalance⟩ := sound_path hm t
  have hmono : (received w c x a).length ≤ (received w c x t).length := (log_mono hat).length_le
  have hlength := congrArg List.length hbalance
  rw [hcompleted, List.length_append] at hlength
  obtain rfl := List.eq_nil_of_length_eq_zero (show pending.length = 0 by omega)
  exact hs.busy.queue_eq_nil i

/-- If nothing more is handed over, from some time on nothing is unanswered, and no command is kept
back. -/
lemma exists_idle (hm : Bounded w c x) {a : ℕ}
    (hkept : ∀ t, a ≤ t → (path w c x t).transfers c (x t) = false)
    (hanswer : ∀ t i, (path w c x t).unanswered i ≠ [] →
      ∃ u, t ≤ u ∧ (path w c x u).answers (x u) ≠ []) :
    ∃ b, a ≤ b ∧ ∀ t, b ≤ t →
      (path w c x t).limiter.suppress ((path w c x t).limiterInputs c (x t)) = false := by
  have hcompleted : ∀ t, completed w c x (a + t) = completed w c x a := fun t =>
    completed_eq (Nat.le_add_right a t) fun u hau _ => hkept u hau
  have hle : ∀ t, (received w c x (a + t)).length ≤ (completed w c x a).length := by
    intro t
    obtain ⟨pending, -, hbalance⟩ := sound_path hm (a + t)
    rw [← hcompleted t, hbalance, List.length_append]
    exact Nat.le_add_right _ _
  obtain ⟨d, hd⟩ := exists_received hm hcompleted hle hanswer
  refine ⟨a + d, Nat.le_add_right a d, fun t hbt => ?_⟩
  have hlast : completed w c x t = completed w c x (a + d) :=
    completed_eq hbt fun u hu _ => hkept u (by omega)
  obtain ⟨pending, hs, -⟩ := sound_path hm t
  refine Bool.eq_false_iff.mpr fun h => ?_
  obtain ⟨-, i, -, hi⟩ := hs.suppress_iff.mp h
  exact hi (unanswered_eq_nil hm hbt hlast (hd.trans (congrArg List.length (hcompleted d)).symm) i)

/-- No command is kept back for ever: if the processor shows it until it is handed over, its
component is ready again and again, and commands are answered as long as there are any unanswered,
then it is handed over. -/
theorem exists_transfers (hm : Bounded w c x) {a : ℕ}
    (hshow : ∀ t, a ≤ t → (∀ u, a ≤ u → u < t → (path w c x u).transfers c (x u) = false) →
      (x t).valid = true ∧ (x t).data = (x a).data)
    (hready : ∀ t, ∃ u, t ≤ u ∧ (x u).srcReady (Path.target c (x a)) = true)
    (hanswer : ∀ t i, (path w c x t).unanswered i ≠ [] →
      ∃ u, t ≤ u ∧ (path w c x u).answers (x u) ≠ []) :
    ∃ t, a ≤ t ∧ (path w c x t).transfers c (x t) = true := by
  by_contra hno
  have hkept : ∀ t, a ≤ t → (path w c x t).transfers c (x t) = false := fun t hat =>
    Bool.eq_false_iff.mpr fun h => hno ⟨t, hat, h⟩
  obtain ⟨b, hab, hpass⟩ := exists_idle hm hkept hanswer
  obtain ⟨u, hbu, hu⟩ := hready b
  obtain ⟨hvalid, hdata⟩ := hshow u (hab.trans hbu) fun v hav _ => hkept v hav
  have htransfer : (path w c x u).transfers c (x u) = true := by
    rw [Path.transfers, TrafficLimiter.cmdSinkReady, hpass u hbu, if_neg Bool.false_ne_true,
      Path.sinkReady_eq, hvalid, Bool.true_and, Path.target, hdata]
    exact hu
  rw [hkept u (hab.trans hbu)] at htransfer
  exact Bool.false_ne_true htransfer

/-- The read of the interrupt counter, which is shown from cycle 1 on, is handed over. -/
theorem exists_transfers_twoReads :
    ∃ t, 1 ≤ t ∧ (path 1 .cpu0 twoReads t).transfers .cpu0 (twoReads t) = true := by
  refine exists_transfers twoReads_bounded (fun t h1 hno => ?_) (fun t => ⟨t, le_rfl, rfl⟩)
    fun t i hi => ?_
  · have ht : t ≤ 3 := by
      by_contra hlt
      exact absurd (hno 3 (by decide) (by omega)) (by decide)
    have hdata : (twoReads t).data = readCommand 0x21040 :=
      congrArg readCommand (if_neg (by omega))
    exact ⟨decide_eq_true ht, hdata⟩
  · rcases Nat.lt_or_ge t 5 with ht | ht
    · exact ⟨4, by omega, by decide⟩
    · have hfive : completed 1 .cpu0 twoReads t = completed 1 .cpu0 twoReads 5 :=
        (completed_twoReads (by omega)).trans (completed_twoReads (by decide)).symm
      exact absurd (unanswered_eq_nil twoReads_bounded ht hfive (by decide) i) hi

end Run

end CyclonRtes.Interconnect
