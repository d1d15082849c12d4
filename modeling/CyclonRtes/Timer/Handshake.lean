import CyclonRtes.Timer.Response

/-!
# Every measurement is printed once

The interrupt service routine and the main program of the response time measurement hand over the
timer to each other: the routine turns the interrupt off and sets `flag`, the main program prints,
clears `flag` and turns the interrupt on again.  If no interrupt came before the end of the setup,
snapshots and outputs therefore alternate (`alternates`).
-/

namespace CyclonRtes.Timer.Response

open Synchronous Interrupts

/-- What an observer of the measurement sees. -/
inductive Event where
  | snapshot | output
  deriving DecidableEq, Repr

/-- The event of a cycle. -/
def System.event (s : System) (y : Schedule Port) : List Event :=
  match s.move code device y with
  | .isr pc => if pc = .snapshot then [.snapshot] else []
  | .main => if s.main.pc = .print then [.output] else []
  | .stall | .enter => []

/-- The events of a run before cycle `t`, oldest first. -/
def events (s : System) (x : ℕ → Schedule Port) (t : ℕ) : List Event :=
  log System.event System.next s x t

/-- The events take turns, beginning with a snapshot. -/
def Alternating (l : List Event) : Prop :=
  ∀ i e, l[i]? = some e → (e = .snapshot ↔ i % 2 = 0)

/-- The event that does not come next. -/
def Event.other : Event → Event
  | .snapshot => .output
  | .output => .snapshot

/-- The event that comes next. -/
def due (l : List Event) : Event := if l.length % 2 = 0 then .snapshot else .output

/-- How far the two programs have come with a measurement; `e` is the event that comes next.  From
the clearing of the control register to the rearming the interrupt is off. -/
def Handover (isr : Option IsrPc) (m : Main) (control : BitVec 4) (e : Event) : Prop :=
  match isr, m.pc with
  | none, .poll => if m.flag then e = .output ∧ control = 0 else e = .snapshot
  | none, .print => e = .output ∧ control = 0
  | none, .clearFlag => e = .snapshot ∧ control = 0
  | none, .rearm => m.flag = false ∧ e = .snapshot ∧ control = 0
  | some .snapshot, .poll => m.flag = false ∧ e = .snapshot
  | some .clearStatus, .poll | some .setFlag, .poll => m.flag = false ∧ e = .output ∧ control = 0
  | some _, .poll => m.flag = false ∧ e = .output
  | _, _ => False

section Step

variable {s : System} {y : Schedule Port} {t : Entity} {m : Main} {control : BitVec 4} {e : Event}

/-- The next event is due when the one before has come. -/
lemma due_concat (l : List Event) (e : Event) : due (l ++ [e]) = (due l).other := by
  unfold due
  rw [List.length_append, List.length_singleton]
  split_ifs <;> first | rfl | omega

/-- The events that are due take turns. -/
lemma Alternating.concat {l : List Event} (h : Alternating l) : Alternating (l ++ [due l]) := by
  intro i e hi
  rcases Nat.lt_or_ge i l.length with hlt | hge
  · rw [List.getElem?_append_left hlt] at hi
    exact h i e hi
  · rw [List.getElem?_append_right hge, List.getElem?_singleton] at hi
    split_ifs at hi with hzero
    obtain rfl := Option.some.inj hi
    obtain rfl : i = l.length := by omega
    unfold due
    split_ifs with heven <;> simp [heven]

/-- A step of the main program: it prints when that is due. -/
lemma Handover.mainStep (h : Handover none m t.controlRegister e) (idle : Port) :
    m.pc ≠ .print ∧ Handover none m.next
        (t.step ⟨true, m.pc.access.getD idle.deselect⟩).controlRegister e ∨
      m.pc = .print ∧ e = .output ∧ Handover none m.next
        (t.step ⟨true, m.pc.access.getD idle.deselect⟩).controlRegister e.other := by
  have hidle : (t.step ⟨true, idle.deselect⟩).controlRegister = t.controlRegister :=
    control_of_not_writes (Port.strobe_deselect _ _)
  obtain ⟨pc, flag, snapl, snaph⟩ := m
  cases pc <;> cases flag <;> simp_all [Handover, Main.next, MainPc.access, Event.other]

/-- A step of the interrupt service routine: it takes a snapshot when that is due. -/
lemma Handover.isrStep {pc : IsrPc} (h : Handover (some pc) m t.controlRegister e) (idle : Port)
    (readdata : BitVec 16) :
    pc ≠ .snapshot ∧ Handover (pc.next readdata m).1 (pc.next readdata m).2
        (t.step ⟨true, pc.access.getD idle.deselect⟩).controlRegister e ∨
      pc = .snapshot ∧ e = .snapshot ∧ Handover (pc.next readdata m).1 (pc.next readdata m).2
        (t.step ⟨true, pc.access.getD idle.deselect⟩).controlRegister e.other := by
  have hidle : (t.step ⟨true, idle.deselect⟩).controlRegister = t.controlRegister :=
    control_of_not_writes (Port.strobe_deselect _ _)
  have hstatus : (t.step ⟨true, .iowr 0 0⟩).controlRegister = t.controlRegister :=
    control_of_not_writes rfl
  have hclear : (t.step ⟨true, .iowr 1 0⟩).controlRegister = 0 := control_of_writes 0
  obtain ⟨mpc, flag, snapl, snaph⟩ := m
  cases pc <;> cases mpc <;>
    simp_all [Handover, IsrPc.next, IsrPc.access, Event.other]

/-- The interrupt line is high only if the interrupt is on. -/
lemma control_of_irq (h : s.irq = true) : s.device.controlRegister ≠ 0 := by
  intro h0
  simp [System.irq, Entity.irq, Entity.controlInterruptEnable, h0] at h

/-- The interrupt service routine begins when the main program waits for it. -/
lemma Handover.enter (h : Handover none m control e) (hc : control ≠ 0) :
    Handover (some .snapshot) m control e := by
  obtain ⟨pc, flag, snapl, snaph⟩ := m
  cases pc <;> cases flag <;> simp_all [Handover]

/-- Every cycle brings no event or the one that is due. -/
lemma handover_next (h : Handover s.isr s.main s.device.controlRegister e) :
    s.event y = [] ∧ Handover (s.next y).isr (s.next y).main (s.next y).device.controlRegister e ∨
      s.event y = [e] ∧
        Handover (s.next y).isr (s.next y).main (s.next y).device.controlRegister e.other := by
  have hidle : (s.device.step ⟨true, y.env.deselect⟩).controlRegister = s.device.controlRegister :=
    control_of_not_writes (Port.strobe_deselect _ _)
  unfold System.event System.next
  obtain ⟨hm, -, hs⟩ | ⟨hm, hnone, hs⟩ | ⟨pc, hm, hpc, hs⟩ | ⟨hm, hnone, -, hirq, hs⟩ :=
    State.step_cases code device s y
  · rw [hs, hm]
    refine .inl ⟨rfl, ?_⟩
    change Handover s.isr s.main (s.device.step ⟨true, y.env.deselect⟩).controlRegister e
    rwa [hidle]
  · rw [hs, hm]
    rw [hnone] at h
    obtain ⟨hpc, hnext⟩ | ⟨hpc, rfl, hnext⟩ := h.mainStep y.env
    · exact .inl ⟨if_neg hpc, hnext⟩
    · exact .inr ⟨if_pos hpc, hnext⟩
  · rw [hs, hm]
    rw [hpc] at h
    obtain ⟨hpc, hnext⟩ | ⟨hpc, rfl, hnext⟩ := h.isrStep y.env s.device.readdata
    · exact .inl ⟨if_neg hpc, hnext⟩
    · exact .inr ⟨if_pos hpc, hnext⟩
  · rw [hs, hm]
    rw [hnone] at h
    refine .inl ⟨rfl, ?_⟩
    change Handover (some .snapshot) s.main
      (s.device.step ⟨true, y.env.deselect⟩).controlRegister e
    rw [hidle]
    exact h.enter (control_of_irq hirq)

end Step

/-- If the main program waits and the interrupt service routine does not run, snapshots and outputs
alternate from then on, whatever the timer does and however long the processor pauses: no
measurement is overwritten before it is printed, and none is printed twice. -/
theorem alternates {s : System} (hisr : s.isr = none) (hpc : s.main.pc = .poll)
    (hflag : s.main.flag = false) (x : ℕ → Schedule Port) (t : ℕ) :
    Alternating (events s x t) := by
  have hinv : ∀ t, Handover (run System.next s x t).isr (run System.next s x t).main
      (run System.next s x t).device.controlRegister (due (events s x t)) ∧
      Alternating (events s x t) := by
    intro t
    induction t with
    | zero =>
      refine ⟨?_, fun i e h => by simp [events] at h⟩
      simp [Handover, hisr, hpc, hflag, due, events]
    | succ t ih =>
      obtain ⟨hover, halt⟩ := ih
      have hevents : events s x (t + 1) =
          events s x t ++ (run System.next s x t).event (x t) := rfl
      rw [hevents, run_succ]
      obtain ⟨hnil, hnext⟩ | ⟨hdue, hnext⟩ := handover_next (y := x t) hover
      · rw [hnil, List.append_nil]
        exact ⟨hnext, halt⟩
      · rw [hdue, due_concat]
        exact ⟨hnext, halt.concat⟩
  exact (hinv t).2

/-- A timeout, its snapshot and its output. -/
theorem alternates_answer : events (waiting 0xFFFFFF) answer 12 = [.snapshot, .output] ∧
    Alternating (events (waiting 0xFFFFFF) answer 12) :=
  ⟨by decide, alternates rfl rfl rfl answer 12⟩

end CyclonRtes.Timer.Response
